import PortForwardX.Platform.Socket
import PortForwardX.Net.Resolver
import PortForwardX.Selection.Fallback

/-!
# Choosing an address

`ConnectToEndpoints` and the loop of `Forwarder::Impl::Start` over the listen endpoints
both try one endpoint after the other. What the system answers to the calls made for the
`i`-th endpoint they try is given by position, and the socket made for it is known by the
same number.
-/
namespace PortForwardX.Net

open Selection

inductive TransportProtocol where
  | tcp
  | udp
  deriving DecidableEq, Repr

/-- What `socket` and `connect` return for one endpoint: success or an error code. -/
structure ConnectCalls where
  socket : Except Int Unit
  connect : Except Int Unit

/-- What `ConnectToEndpoints` leaves: its result, its two output parameters and what it did
to sockets. The message is written only on failure. -/
structure ConnectResult where
  success : Bool
  socketOut : SocketHandle
  errorMessage : Option String
  uses : List Use

/-- The loop of `ConnectToEndpoints` at its `i`-th endpoint, with `last_error`. -/
def connectLoop (strerror : Int → String) (calls : Nat → ConnectCalls) (socketOut : SocketHandle) :
    List ResolvedEndpoint → Nat → Int → List Use → ConnectResult
  | [], _, lastError, uses =>
    { success := false, socketOut := socketOut
      errorMessage := some ("Unable to connect to target endpoint(s)" ++
        (if lastError ≠ 0 then ", last_error=" ++ strerror lastError else "") ++ ".")
      uses := uses }
  | _ :: rest, i, _, uses =>
    match (calls i).socket with
    | .error e => connectLoop strerror calls socketOut rest (i + 1) e uses
    | .ok () =>
      match (calls i).connect with
      | .ok () =>
        { success := true, socketOut := some i, errorMessage := none, uses := uses ++ [.made i] }
      | .error e =>
        connectLoop strerror calls socketOut rest (i + 1) e (uses ++ [.made i, .released i])

/-- `ConnectToEndpoints`. The options it sets on UDP sockets have no result it looks at. -/
def connectToEndpoints (strerror : Int → String) (calls : Nat → ConnectCalls)
    (endpoints : List ResolvedEndpoint) (socketOut : SocketHandle) : ConnectResult :=
  connectLoop strerror calls socketOut endpoints 0 0 []

/-- What `getsockname` and `inet_ntop` report of a listening socket. -/
structure SockName where
  family : NativeFamily
  port : UInt16
  ip : Option String
  deriving DecidableEq, Repr

/-- Which of the calls made for one listen endpoint succeed. -/
structure ListenCalls where
  socket : Bool
  reuseAddress : Bool
  bind : Bool
  listen : Bool
  getsockname : Option SockName

/-- The loop of `Forwarder::Impl::Start` up to the point where it keeps a candidate. -/
def listenLoop (protocol : TransportProtocol) (calls : Nat → ListenCalls) :
    List ResolvedEndpoint → Nat → List Use → SocketHandle × List Use
  | [], _, uses => (kInvalidSocket, uses)
  | _ :: rest, i, uses =>
    if !(calls i).socket then listenLoop protocol calls rest (i + 1) uses
    else if !(calls i).reuseAddress then
      listenLoop protocol calls rest (i + 1) (uses ++ [.made i, .released i])
    else if !(calls i).bind then
      listenLoop protocol calls rest (i + 1) (uses ++ [.made i, .released i])
    else if protocol = .tcp ∧ !(calls i).listen then
      listenLoop protocol calls rest (i + 1) (uses ++ [.made i, .released i])
    else (some i, uses ++ [.made i])

/-! ### Both are searches for the first candidate that does -/

/-- `socket` and `connect` both succeed, or where the attempt ends. -/
def ConnectCalls.trial (c : ConnectCalls) : Trial :=
  match c.socket, c.connect with
  | .error _, _ => .absent
  | .ok (), .error _ => .rejected
  | .ok (), .ok () => .accepted

/-- A listen endpoint does if every call that is made for it succeeds. -/
def ListenCalls.trial (protocol : TransportProtocol) (c : ListenCalls) : Trial :=
  if !c.socket then .absent
  else if c.reuseAddress && c.bind && (protocol == .udp || c.listen) then .accepted
  else .rejected

variable {strerror : Int → String} {calls : Nat → ConnectCalls} {socketOut : SocketHandle}
  {endpoints : List ResolvedEndpoint} {i : Nat} {lastError : Int} {uses : List Use}

/-- The loop behaves as the search does. -/
theorem connectLoop_eq :
    let result := connectLoop strerror calls socketOut endpoints i lastError uses
    let search := tryInOrder (fun i => (calls i).trial) endpoints i
    result.success = search.1.isSome ∧
      result.socketOut = (search.1.map Prod.snd).or socketOut ∧
      result.errorMessage.isSome = !result.success ∧ result.uses = uses ++ search.2 := by
  induction endpoints generalizing i lastError uses with
  | nil => simp [connectLoop, tryInOrder]
  | cons endpoint rest ih =>
    unfold connectLoop tryInOrder
    cases made : (calls i).socket with
    | error e =>
      have absent : (calls i).trial = .absent := by simp [ConnectCalls.trial, made]
      simpa [absent] using ih
    | ok =>
      cases joined : (calls i).connect with
      | ok => simp [ConnectCalls.trial, made, joined]
      | error e =>
        have rejected : (calls i).trial = .rejected := by simp [ConnectCalls.trial, made, joined]
        obtain ⟨success, out, message, used⟩ := @ih (i + 1) e (uses ++ [.made i, .released i])
        simp [rejected, success, out, message, used]

theorem listenLoop_eq {protocol : TransportProtocol} {calls : Nat → ListenCalls} :
    let search := tryInOrder (fun i => (calls i).trial protocol) endpoints i
    listenLoop protocol calls endpoints i uses =
      (search.1.map Prod.snd, uses ++ search.2) := by
  induction endpoints generalizing i uses with
  | nil => simp [listenLoop, tryInOrder, kInvalidSocket]
  | cons endpoint rest ih =>
    unfold listenLoop tryInOrder
    cases made : (calls i).socket with
    | false => simpa [ListenCalls.trial, made] using ih
    | true =>
      -- any of the later calls may be the one that fails
      cases reuse : (calls i).reuseAddress with
      | false => simp [ListenCalls.trial, made, reuse, ih]
      | true =>
        cases bound : (calls i).bind with
        | false => simp [ListenCalls.trial, made, reuse, bound, ih]
        | true =>
          cases protocol <;> cases listening : (calls i).listen <;>
            simp [ListenCalls.trial, made, reuse, bound, listening, ih]

/-! ### The order in which endpoints are tried -/

/-- What `getaddrinfo` returns for an Internet host. -/
def ResolvedEndpoint.Internet (endpoint : ResolvedEndpoint) : Prop :=
  endpoint.family = .inet ∨ endpoint.family = .inet6

/-- The comparison that `SortEndpoints` gives to `std::stable_sort`. -/
def comesBefore (lhs rhs : ResolvedEndpoint) : Prop := lhs.family = .inet6 ∧ rhs.family = .inet

/-- Among Internet endpoints the comparison is a strict weak order, as the sort requires:
irreflexive and transitive, with a transitive relation "neither comes before the other". -/
theorem comesBefore_strictWeak {a b c : ResolvedEndpoint} (ha : a.Internet) (hb : b.Internet)
    (hc : c.Internet) :
    ¬ comesBefore a a ∧ (comesBefore a b → comesBefore b c → comesBefore a c) ∧
      (¬ comesBefore a b → ¬ comesBefore b a → ¬ comesBefore b c → ¬ comesBefore c b →
        ¬ comesBefore a c ∧ ¬ comesBefore c a) := by
  unfold comesBefore
  rcases ha with ha | ha <;> rcases hb with hb | hb <;> rcases hc with hc | hc <;>
    simp [ha, hb, hc]

/-- An element is inserted behind all those it must not come before. -/
theorem orderedInsert_append {α : Type} (r : α → α → Prop) [DecidableRel r] (x : α)
    {before after : List α} (behind : ∀ y ∈ before, ¬ r x y) :
    (before ++ after).orderedInsert r x = before ++ after.orderedInsert r x := by
  induction before with
  | nil => rfl
  | cons y rest ih =>
    rw [List.cons_append, List.orderedInsert_of_not_le _ _ (behind y List.mem_cons_self),
      ih fun z member => behind z (List.mem_cons_of_mem _ member)]
    rfl

/-- IPv6 endpoints first, each family in resolver order. -/
theorem sortEndpoints_auto {endpoints : List ResolvedEndpoint}
    (internet : ∀ endpoint ∈ endpoints, endpoint.Internet) :
    sortEndpoints endpoints .auto = endpoints.filter (fun endpoint => endpoint.family = .inet6) ++
      endpoints.filter fun endpoint => endpoint.family = .inet := by
  rw [sortEndpoints, if_pos rfl]
  induction endpoints with
  | nil => rfl
  | cons endpoint rest ih =>
    rw [List.insertionSort_cons, ih fun e member => internet e (List.mem_cons_of_mem _ member)]
    rcases internet endpoint List.mem_cons_self with inet | inet6
    · -- an IPv4 endpoint goes behind all IPv6 ones and in front of the later IPv4 ones
      rw [orderedInsert_append]
      · cases later : rest.filter fun endpoint => endpoint.family = .inet with
        | nil => simp [inet, later]
        | cons next others =>
          have next_inet : next.family = .inet := by
            have member : next ∈ rest.filter fun endpoint => endpoint.family = .inet := by
              simp [later]
            simpa using (List.mem_filter.mp member).2
          simp [inet, later, next_inet]
      · intro other member
        simpa [inet] using (List.mem_filter.mp member).2
    · cases sorted : rest.filter (fun endpoint => endpoint.family = .inet6) ++
          rest.filter fun endpoint => endpoint.family = .inet with
      | nil => simp_all
      | cons first others =>
        rw [List.orderedInsert_cons_of_le _ _ (by simp [inet6]), ← sorted]
        simp [inet6]

theorem sortEndpoints_only {endpoints : List ResolvedEndpoint} {family : AddressFamilyPreference}
    (explicit : family ≠ .auto) :
    sortEndpoints endpoints family =
      endpoints.filter fun endpoint => endpoint.family = toNativeFamily family := by
  rw [sortEndpoints, if_neg explicit]

/-! ### The endpoint chosen -/

/-- The first of some endpoints whose calls succeed. The calls made for the first of them
are numbered `i`. -/
def firstWorking (works : Nat → Bool) (endpoints : List ResolvedEndpoint) (i : Nat) :
    Option (ResolvedEndpoint × Nat) :=
  (endpoints.zipIdx i).find? fun x => works x.2

/-- The endpoint that ought to be chosen among those resolved: the first IPv6 endpoint that
works or else the first IPv4 endpoint that works; under an explicit family the first
endpoint of that family that works. -/
def preferred (works : Nat → Bool) (endpoints : List ResolvedEndpoint) :
    AddressFamilyPreference → Option (ResolvedEndpoint × Nat)
  | .auto =>
    let ipv6 := endpoints.filter fun endpoint => endpoint.family = .inet6
    let ipv4 := endpoints.filter fun endpoint => endpoint.family = .inet
    (firstWorking works ipv6 0).or (firstWorking works ipv4 ipv6.length)
  | .ipv4Only => firstWorking works (endpoints.filter fun endpoint => endpoint.family = .inet) 0
  | .ipv6Only => firstWorking works (endpoints.filter fun endpoint => endpoint.family = .inet6) 0

theorem preferred_eq {works : Nat → Bool} {endpoints : List ResolvedEndpoint}
    {family : AddressFamilyPreference}
    (internet : ∀ endpoint ∈ endpoints, endpoint.Internet) :
    preferred works endpoints family =
      firstWorking works (sortEndpoints endpoints family) 0 := by
  cases family with
  | auto =>
    rw [sortEndpoints_auto internet]
    simp [preferred, firstWorking, List.zipIdx_append, List.find?_append]
  | ipv4Only => rw [sortEndpoints_only (by decide)]; rfl
  | ipv6Only => rw [sortEndpoints_only (by decide)]; rfl

/-- A loop over the sorted endpoints that keeps the socket `kept` and makes and closes
sockets as `uses` tells chooses the preferred endpoint and leaks nothing. -/
structure Chooses (endpoints : List ResolvedEndpoint) (family : AddressFamilyPreference)
    (works : Nat → Bool) (kept : SocketHandle) (uses : List Use) : Prop where
  chosen : kept = (preferred works endpoints family).map Prod.snd
  admissible : ∀ endpoint i, preferred works endpoints family = some (endpoint, i) →
    (sortEndpoints endpoints family)[i]? = some endpoint ∧ works i = true ∧ endpoint ∈ endpoints ∧
      (family ≠ .auto → endpoint.family = toNativeFamily family)
  fails : kept = none ↔ ∀ i < (sortEndpoints endpoints family).length, works i = false
  once : ∀ i, uses.count (.made i) ≤ 1
  balanced : ∀ i, uses.count (.released i) + (if kept = some i then 1 else 0) =
    uses.count (.made i)

theorem mem_sortEndpoints {endpoints : List ResolvedEndpoint} {family : AddressFamilyPreference}
    {endpoint : ResolvedEndpoint} (member : endpoint ∈ sortEndpoints endpoints family) :
    endpoint ∈ endpoints ∧ (family ≠ .auto → endpoint.family = toNativeFamily family) := by
  by_cases auto : family = .auto
  · rw [sortEndpoints, if_pos auto] at member
    exact ⟨List.mem_insertionSort _ |>.mp member, fun explicit => absurd auto explicit⟩
  · rw [sortEndpoints_only auto] at member
    simpa [auto] using member

/-- Any search through the sorted endpoints chooses as it ought to. -/
theorem tryInOrder_chooses {endpoints : List ResolvedEndpoint} {family : AddressFamilyPreference}
    (internet : ∀ endpoint ∈ endpoints, endpoint.Internet) (trial : Nat → Trial) :
    Chooses endpoints family (fun i => trial i = .accepted)
      ((tryInOrder trial (sortEndpoints endpoints family) 0).1.map Prod.snd)
      (tryInOrder trial (sortEndpoints endpoints family) 0).2 where
  chosen := by rw [tryInOrder_kept, preferred_eq internet, firstWorking]
  admissible endpoint i found := by
    rw [preferred_eq internet, firstWorking] at found
    have place := List.mem_zipIdx_iff_getElem?.mp (List.mem_of_find?_eq_some found)
    exact ⟨place, by simpa using List.find?_some found, mem_sortEndpoints (List.mem_of_getElem? place)⟩
  fails := by
    rw [tryInOrder_kept, Option.map_eq_none_iff, List.find?_eq_none]
    constructor
    · intro none_ i within
      simpa using none_ ((sortEndpoints endpoints family)[i], i)
        (List.mem_zipIdx_iff_getElem?.mpr (by simp))
    · rintro none_ ⟨endpoint, i⟩ member
      have place := List.mem_zipIdx_iff_getElem?.mp member
      have within := (List.getElem?_eq_some_iff.mp place).1
      simpa using none_ i within
  once := tryInOrder_once
  balanced := tryInOrder_balanced

/-- For every list of Internet endpoints, every family preference and every outcome of the
calls, sorting the endpoints and trying them in order chooses the preferred one, in
`ConnectToEndpoints` as in the listen loop of `Start`. `ConnectToEndpoints` succeeds if and only
if some endpoint works, and leaves its output parameter as it was if it fails. -/
theorem address_selection {endpoints : List ResolvedEndpoint} (family : AddressFamilyPreference)
    (internet : ∀ endpoint ∈ endpoints, endpoint.Internet) :
    (∀ a ∈ endpoints, ∀ b ∈ endpoints, ∀ c ∈ endpoints,
      ¬ comesBefore a a ∧ (comesBefore a b → comesBefore b c → comesBefore a c) ∧
        (¬ comesBefore a b → ¬ comesBefore b a → ¬ comesBefore b c → ¬ comesBefore c b →
          ¬ comesBefore a c ∧ ¬ comesBefore c a)) ∧
    (∀ strerror calls socketOut,
      let result := connectToEndpoints strerror calls (sortEndpoints endpoints family) socketOut
      Chooses endpoints family (fun i => (calls i).trial = .accepted)
        (if result.success then result.socketOut else none) result.uses ∧
      (result.success = true ↔
        ∃ i < (sortEndpoints endpoints family).length, (calls i).trial = .accepted) ∧
      (result.success = false → result.socketOut = socketOut)) ∧
    ∀ protocol calls,
      let result := listenLoop protocol calls (sortEndpoints endpoints family) 0 []
      Chooses endpoints family (fun i => (calls i).trial protocol = .accepted) result.1
        result.2 := by
  refine ⟨fun a ha b hb c hc => comesBefore_strictWeak (internet a ha) (internet b hb)
    (internet c hc), fun strerror calls socketOut => ?_, fun protocol calls => ?_⟩
  · have chooses : Chooses endpoints family (fun i => (calls i).trial = .accepted) _ _ :=
      tryInOrder_chooses internet fun i => (calls i).trial
    dsimp only [connectToEndpoints]
    obtain ⟨success, out, -, uses⟩ :=
      @connectLoop_eq strerror calls socketOut (sortEndpoints endpoints family) 0 0 []
    rw [success, out, uses, List.nil_append]
    have fails := chooses.fails
    simp only [decide_eq_false_iff_not] at fails
    have succeeds : (tryInOrder (fun i => (calls i).trial)
        (sortEndpoints endpoints family) 0).1.isSome = true ↔
        ∃ i < (sortEndpoints endpoints family).length, (calls i).trial = .accepted := by
      rw [Option.isSome_iff_ne_none, Ne, ← Option.map_eq_none_iff, fails]
      push Not
      rfl
    refine ⟨?_, succeeds, fun failed => ?_⟩
    · cases found : (tryInOrder (fun i => (calls i).trial) (sortEndpoints endpoints family) 0).1 with
      | none => simpa [found] using chooses
      | some kept => simpa [found] using chooses
    · rw [Option.isSome_eq_false_iff, Option.isNone_iff_eq_none] at failed
      simp [failed]
  · have chooses : Chooses endpoints family (fun i => (calls i).trial protocol = .accepted) _ _ :=
      tryInOrder_chooses internet fun i => (calls i).trial protocol
    rw [listenLoop_eq]
    simpa using chooses

/-- One IPv4 and two IPv6 addresses. -/
def mixedEndpoints : List ResolvedEndpoint :=
  [⟨.inet, [2, 0, 0, 53], _, rfl⟩, ⟨.inet6, [10, 0, 0, 53], _, rfl⟩,
    ⟨.inet6, [10, 0, 0, 54], _, rfl⟩]

/-- The first IPv6 address refuses the connection: the second one is taken, and the socket
made for the first is closed. -/
theorem address_selection_second_ipv6 :
    let calls : Nat → ConnectCalls := fun i => ⟨.ok (), if i = 0 then .error 111 else .ok ()⟩
    let result := connectToEndpoints (fun _ => "Connection refused") calls
      (sortEndpoints mixedEndpoints .auto) kInvalidSocket
    result.success = true ∧ result.socketOut = some 1 ∧
      result.uses = [.made 0, .released 0, .made 1] ∧
      Chooses mixedEndpoints .auto (fun i => (calls i).trial = .accepted) (some 1) result.uses := by
  intro calls result
  have internet : ∀ endpoint ∈ mixedEndpoints, endpoint.Internet := by
    simp [mixedEndpoints, ResolvedEndpoint.Internet]
  have chooses := ((address_selection .auto internet).2.1 (fun _ => "Connection refused") calls
    kInvalidSocket).1
  exact ⟨rfl, rfl, rfl, chooses⟩

end PortForwardX.Net
