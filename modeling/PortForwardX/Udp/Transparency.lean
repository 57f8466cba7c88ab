import PortForwardX.Udp.Descriptors
import PortForwardX.Udp.Relay
import PortForwardX.Udp.Resolution

/-!
# Transparency

Both loops take a result of zero from `recvfrom` for the absence of a datagram. Apart from
datagrams of length zero, and as long as the environment plays along, the forwarder passes
everything on and keeps its sessions.
-/
namespace PortForwardX.Udp

open Transition Net Conduit

/-! ### Client to target -/

/-- Some address of a target list fits into a `sockaddr_storage`. -/
def fitting (endpoints : List ResolvedEndpoint) : Bool :=
  endpoints.any fun endpoint => endpoint.sockaddrLen ≤ sizeofSockaddrStorage

/-- There is a target, sockets and threads can be made, and neither `recvfrom` nor `sendto`
reports anything but a timeout to `UdpLoop`. -/
def serviceable (p : Setup) (s : State) : Action → Bool
  | .udp a =>
    match s.udp, a with
    | .snapshot _, _ => fitting s.targetEndpoints
    | .createSocket _ _, .error _ => false
    | .startThread _ _, .started ok => ok
    | .inRecv _, .error e => isTransientRecvError p.platform e
    | .sendTo _ _, .error _ => false
    | _, _ => true
  | _ => true

/-- The payloads of one client among a list of parcels. -/
def ofClient (client : SockAddr) (parcels : List Parcel) : List (List UInt8) :=
  (parcels.filter fun parcel => parcel.1 = client).map Prod.snd

/-- While a socket is being made, some address is left that fits. -/
def Roomy (s : State) : Prop := ∀ d endpoints, s.udp = .createSocket d endpoints → fitting endpoints

variable {p : Setup} {s t : State} {c c' : Cleanup} {a : Answer} {action : Action}
  {σ : SessionId}

theorem UdpMove.roomy (move : UdpMove p s a t) (before : Roomy s)
    (admitted : serviceable p s (.udp a) = true) : Roomy t := by
  cases move with
  | snapshot pc =>
    -- the premise speaks about the list that is copied here
    rintro d endpoints ⟨⟩
    simpa [serviceable, pc] using admitted
  | tooLong pc long =>
    -- the address that is passed over is not the one that fits
    rintro d endpoints ⟨⟩
    simpa [fitting, Nat.not_le.mpr long] using before _ _ pc
  | socketFailed pc => simp [serviceable, pc] at admitted
  | noThread pc => exact before
  | test | retest | cleaned =>
    intro d endpoints pc
    dsimp only [State.goto] at pc
    split at pc <;> cases pc
  | _ =>
    intro d endpoints pc
    simp at pc

theorem roomy_reached
    (reached : (forwarder p).Reach (fun s action => serviceable p s action = true) s) :
    Roomy s := by
  induction reached with
  | start init =>
    obtain ⟨fd, clock, outcome, endpoints, -, rfl⟩ := init
    simp [Roomy, started]
  | @next _ _ action before admitted step ih =>
    have move := step_move step
    by_cases own : ∃ a, action = .udp a
    · obtain ⟨a, rfl⟩ := own
      cases move with
      | udp move => exact move.roomy ih admitted
    · intro d endpoints pc
      rw [(move.quiet fun a same => own ⟨a, same⟩).udp] at pc
      exact ih d endpoints pc

/-- A serviceable step gives up no datagram. -/
theorem Roomy.keeps (roomy : Roomy s) (admitted : serviceable p s (.udp a) = true) :
    losesDatagram s a = false := by
  unfold losesDatagram
  split
  next d pc =>
    simp only [serviceable, pc] at admitted
    cases endpoints : s.targetEndpoints with
    | nil => simp [fitting, endpoints] at admitted
    | cons => rfl
  next d pc => simpa [fitting] using roomy d [] pc
  next d σ e pc => simp [serviceable, pc] at admitted
  next => rfl

theorem upward_exact
    (reached : (forwarder p).Reach (fun s action => serviceable p s action = true) s) :
    s.upward.Exact NonEmpty := by
  induction reached with
  | start init =>
    obtain ⟨fd, clock, outcome, endpoints, -, rfl⟩ := init
    rfl
  | next before admitted step ih =>
    refine ((step_move step).upward.mono ?_).exact ih
    -- no step of such a run loses a datagram
    rintro ⟨a, rfl, loss⟩
    simp [(roomy_reached before).keeps admitted] at loss

/-- The branch for a failed `sendto` is taken after a successful one just if nothing was
there to send. -/
theorem marks_reached {ok : State → Action → Prop} (reached : (forwarder p).Reach ok s)
    {client : SockAddr} {socket : Owner} {dest : SockAddr} {payload : List UInt8} {marks : Bool}
    (sent : .sendUpstream σ client socket dest payload marks ∈ s.trace) :
    marks = true ↔ payload = [] := by
  induction reached with
  | start init =>
    obtain ⟨fd, clock, outcome, endpoints, -, rfl⟩ := init
    simp [started] at sent
  | @next s t action _ _ step ih =>
    have move := step_move step
    rcases move.loopEvent rfl sent with old | ⟨a, rfl⟩
    · exact ih old
    · cases move with
      | udp move =>
        cases move with
        | clean pc unfinished move => cases move <;> exact ih (by simpa using sent)
        | sent pc open_ some_ =>
          rcases List.mem_append.mp sent with old | new
          · exact ih old
          · simp only [List.mem_singleton, Event.sendUpstream.injEq] at new
            obtain ⟨-, -, -, -, rfl, rfl⟩ := new
            simp [some_]
        | sentEmpty pc open_ none_ =>
          rcases List.mem_append.mp sent with old | new
          · exact ih old
          · simp only [List.mem_singleton, Event.sendUpstream.injEq] at new
            obtain ⟨-, -, -, -, rfl, rfl⟩ := new
            simp [none_]
        | _ => exact ih (by simpa using sent)

theorem ofClient_append {client : SockAddr} {xs ys : List Parcel} :
    ofClient client (xs ++ ys) = ofClient client xs ++ ofClient client ys := by
  simp [ofClient]

theorem ofClient_filter {client : SockAddr} {xs : List Parcel} :
    ofClient client (xs.filter NonEmpty) = (ofClient client xs).filter (· ≠ []) := by
  simp only [ofClient, List.filter_map, List.filter_filter]
  congr 2
  funext parcel
  by_cases own : parcel.1 = client <;> by_cases empty : parcel.2 = [] <;>
    simp [NonEmpty, own, empty]

/-- Client-to-target transparency. In every run in which there is a target, sockets and
threads can be made and no call of `UdpLoop` fails, the datagrams of a client are sent to
the target one for one, the last of them being possibly still in hand, and no successful
send marks a session, if and only if none of them is empty. At the head of its loop
`UdpLoop` has nothing in hand. -/
theorem transparent_iff
    (reached : (forwarder p).Reach (fun s action => serviceable p s action = true) s)
    (client : SockAddr) :
    (ofClient client s.upward.sent ++ ofClient client s.upward.hand.toList =
        ofClient client s.upward.received ∧
      ∀ σ socket dest payload marks,
        .sendUpstream σ client socket dest payload marks ∈ s.trace → marks = false) ↔
      ∀ payload ∈ ofClient client s.upward.received, payload ≠ [] := by
  have exact_ := upward_exact reached
  have unmarked : ∀ σ socket dest payload marks,
      .sendUpstream σ client socket dest payload marks ∈ s.trace → marks = false := by
    intro σ socket dest payload marks sent
    have some_ : payload ≠ [] :=
      upward_wanted reached _ (List.mem_append_left _ (State.mem_upward_sent sent))
    simpa [some_] using marks_reached reached sent
  -- what is missing on the other side is what the filter drops
  rw [← ofClient_append, exact_, ofClient_filter]
  simp only [List.filter_eq_self, decide_eq_true_eq]
  exact ⟨And.left, fun some_ => ⟨some_, unmarked⟩⟩

/-- Two clients, the first of which sends again. -/
def busyClients (again : Payload) : List Action :=
  Sample.oneClient ++
    Sample.newClient 5 Sample.bob (Sample.payload [3]) ++
    ([.none, .none, .none, .datagram Sample.alice again] : List Answer).map .udp

theorem transparent_iff_busy :
    ∃ s, (forwarder Sample.setup).Reach
        (fun s action => serviceable Sample.setup s action = true) s ∧
      ofClient Sample.alice s.upward.received = [[1, 2], [4]] ∧
      ofClient Sample.alice s.upward.sent ++ ofClient Sample.alice s.upward.hand.toList =
        [[1, 2], [4]] := by
  have result : ((forwarder Sample.setup).runIf
      (fun s action => serviceable Sample.setup s action = true) Sample.initial
      (busyClients (Sample.payload [4]))).map (fun s => ofClient Sample.alice s.upward.received) =
      some [[1, 2], [4]] := by
    decide +kernel
  obtain ⟨s, run, seen⟩ := Option.map_eq_some_iff.mp result
  have reached := Machine.Reach.runIf (.start Sample.initial_init) run
  have same := (transparent_iff reached Sample.alice).mpr (by rw [seen]; decide)
  exact ⟨s, reached, seen, seen ▸ same.1⟩

/-- An empty datagram is taken for a timeout: the client sent two, the target gets one. -/
theorem empty_datagram_dropped :
    ∃ s, (forwarder Sample.setup).Reach
        (fun s action => serviceable Sample.setup s action = true) s ∧
      s.udp = .test ∧ ofClient Sample.alice s.upward.received = [[1, 2], []] ∧
      ofClient Sample.alice s.upward.sent = [[1, 2]] ∧ s.upward.hand = none := by
  have result : ((forwarder Sample.setup).runIf
      (fun s action => serviceable Sample.setup s action = true) Sample.initial
      (busyClients (Sample.payload []) ++ [.udp .none, .udp .none])).map (fun s =>
        decide (s.udp = .test ∧ ofClient Sample.alice s.upward.received = [[1, 2], []] ∧
          ofClient Sample.alice s.upward.sent = [[1, 2]] ∧ s.upward.hand = none)) =
      some true := by
    decide +kernel
  obtain ⟨s, run, seen⟩ := Option.map_eq_some_iff.mp result
  exact ⟨s, Machine.Reach.runIf (.start Sample.initial_init) run, of_decide_eq_true seen⟩

end PortForwardX.Udp
