import Mathlib.Data.List.Basic

/-!
# Socket addresses and their textual keys

Addresses are compared by the program only through the text `getnameinfo` renders for
them. The call itself belongs to the platform and is a parameter.
-/
namespace PortForwardX.Net

/-- The first `socklen_t` bytes of a `sockaddr_storage`. -/
structure SockAddr where
  bytes : List UInt8
  deriving DecidableEq, Repr

/-- `sizeof(sockaddr_storage)`. -/
def sizeofSockaddrStorage : Nat := 128

/-- `getnameinfo` with the flags for a numeric host and service: the two texts, or
nothing if it fails. -/
abbrev GetNameInfo := SockAddr → Option (String × String)

/-- `EndpointToString`. -/
def endpointToString (getnameinfo : GetNameInfo) (address : SockAddr) : String :=
  match getnameinfo address with
  | some (host, service) => host ++ ":" ++ service
  | none => "unknown"

/-- `ClientEndpointKey`. -/
def clientEndpointKey (getnameinfo : GetNameInfo) (address : SockAddr) : String :=
  endpointToString getnameinfo address

/-- What numeric rendering promises: the pair of texts determines the address, and the
service is a decimal number. The host text of an IPv6 address contains colons. -/
structure NumericNames (getnameinfo : GetNameInfo) : Prop where
  determines {a b : SockAddr} {name : String × String} :
    getnameinfo a = some name → getnameinfo b = some name → a = b
  decimal {a : SockAddr} {host service : String} :
    getnameinfo a = some (host, service) → ':' ∉ service.toList

/-- A list is cut in one way only at the first occurrence of a separator. -/
theorem cut_at_first {α : Type} {sep : α} {xs ys us vs : List α} (left : sep ∉ xs)
    (right : sep ∉ ys) (same : xs ++ sep :: us = ys ++ sep :: vs) : xs = ys ∧ us = vs := by
  induction xs generalizing ys with
  | nil =>
    cases ys with
    | nil => simpa using same
    | cons y ys =>
      obtain ⟨rfl, -⟩ := List.cons.inj same
      exact absurd List.mem_cons_self right
  | cons x xs ih =>
    cases ys with
    | nil =>
      obtain ⟨rfl, -⟩ := List.cons.inj same
      exact absurd List.mem_cons_self left
    | cons y ys =>
      simp only [List.cons_append, List.cons.injEq] at same
      obtain ⟨rfl, same⟩ := same
      have rest := ih (fun h => left (List.mem_cons_of_mem _ h))
        (fun h => right (List.mem_cons_of_mem _ h)) same
      exact ⟨congrArg _ rest.1, rest.2⟩

/-- The last colon separates host and service, whatever the host contains. -/
theorem hostService_injective {host host' service service' : String}
    (plain : ':' ∉ service.toList) (plain' : ':' ∉ service'.toList)
    (same : host ++ ":" ++ service = host' ++ ":" ++ service') :
    host = host' ∧ service = service' := by
  have chars : host.toList ++ ':' :: service.toList = host'.toList ++ ':' :: service'.toList := by
    simpa [String.toList_append] using congrArg String.toList same
  have mirrored := congrArg List.reverse chars
  simp only [List.reverse_append, List.reverse_cons, List.append_assoc, List.singleton_append]
    at mirrored
  -- read backwards, the text up to the first colon is the service
  obtain ⟨services, hosts⟩ := cut_at_first (by simpa using plain) (by simpa using plain') mirrored
  exact ⟨String.toList_injective (List.reverse_injective hosts),
    String.toList_injective (List.reverse_injective services)⟩

/-- Distinct addresses that `getnameinfo` can render have distinct keys. -/
theorem clientEndpointKey_injective {getnameinfo : GetNameInfo} (names : NumericNames getnameinfo)
    {a b : SockAddr} (ha : (getnameinfo a).isSome) (hb : (getnameinfo b).isSome)
    (same : clientEndpointKey getnameinfo a = clientEndpointKey getnameinfo b) : a = b := by
  obtain ⟨⟨host, service⟩, nameA⟩ := Option.isSome_iff_exists.mp ha
  obtain ⟨⟨host', service'⟩, nameB⟩ := Option.isSome_iff_exists.mp hb
  simp only [clientEndpointKey, endpointToString, nameA, nameB] at same
  obtain ⟨rfl, rfl⟩ := hostService_injective (names.decimal nameA) (names.decimal nameB) same
  exact names.determines nameA nameB

end PortForwardX.Net
