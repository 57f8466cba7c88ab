import PortForwardX.Tcp.Control
import PortForwardX.Conduit.Pipe

/-!
# A relay is a pipe

Each direction of a session, seen through the calls it makes, is a bounded pipe
with the size of the relay's buffer as its capacity. What the pipe guarantees then
holds of the bytes on the two sockets, under every interleaving of the two relays
with each other, with `Stop` and with the peers.
-/
namespace PortForwardX.Tcp

open Transition Conduit

/-- The bytes `Recv` has returned from one socket. -/
def received (d : Side) (trace : List Call) : List UInt8 :=
  trace.flatMap fun
    | .recv side chunk => if side = d then chunk else []
    | _ => []

/-- The bytes `Send` has accepted on the destination of the relay that reads `d`. -/
def delivered (d : Side) (trace : List Call) : List UInt8 :=
  trace.flatMap fun
    | .send side chunk => if side = d.other then chunk else []
    | _ => []

/-- What a call means to the pipe from `d` to `d.other`. A call that fails moves
nothing but still counts as a use of the pipe. -/
def pipeEvent (d : Side) : Call → Option (Pipe.Event UInt8)
  | .recv side chunk => if side = d then some (.take chunk) else none
  | .recvEnd side | .recvError side => if side = d then some (.take []) else none
  | .send side chunk => if side = d.other then some (.accept chunk) else none
  | .sendError side => if side = d.other then some (.accept []) else none
  | .shutdownWrite side => if side = d.other then some .close else none
  | .shutdownBoth _ | .close _ => none

def history (d : Side) (trace : List Call) : List (Pipe.Event UInt8) :=
  trace.filterMap (pipeEvent d)

theorem history_append (d : Side) (before after : List Call) :
    history d (before ++ after) = history d before ++ history d after :=
  List.filterMap_append

theorem takenBy_history (d : Side) (trace : List Call) :
    Pipe.takenBy (history d trace) = received d trace := by
  induction trace with
  | nil => rfl
  | cons c rest ih =>
    have one : Pipe.takenBy (history d [c]) = received d [c] := by
      cases c with
      | shutdownBoth side | close side => rfl
      | recv side _ | recvEnd side | recvError side =>
        by_cases own : side = d <;> simp [history, pipeEvent, Pipe.takenBy, received, own]
      | send side _ | sendError side | shutdownWrite side =>
        by_cases own : side = d.other <;> simp [history, pipeEvent, Pipe.takenBy, received, own]
    rw [← List.singleton_append, history_append, Pipe.takenBy_append, ih, one]
    simp [received]

theorem acceptedBy_history (d : Side) (trace : List Call) :
    Pipe.acceptedBy (history d trace) = delivered d trace := by
  induction trace with
  | nil => rfl
  | cons c rest ih =>
    have one : Pipe.acceptedBy (history d [c]) = delivered d [c] := by
      cases c with
      | shutdownBoth side | close side => rfl
      | recv side _ | recvEnd side | recvError side =>
        by_cases own : side = d <;> simp [history, pipeEvent, Pipe.acceptedBy, delivered, own]
      | send side _ | sendError side | shutdownWrite side =>
        by_cases own : side = d.other <;> simp [history, pipeEvent, Pipe.acceptedBy, delivered, own]
    rw [← List.singleton_append, history_append, Pipe.acceptedBy_append, ih, one]
    simp [delivered]

/-- What the control point of a relay says about its pipe. While `SendAll` runs,
the pipe holds the part of the buffer that has not been sent. -/
def Matches (r : Relay) (p : Pipe UInt8 bufferSize) : Prop :=
  match r.pc with
  | .notStarted | .recv | .shutdownWrite => p.closed = false ∧ p.pending = []
  | .send size sent =>
    p.closed = false ∧ sent < size ∧ size ≤ r.buffer.length ∧
      p.pending = (r.buffer.take size).drop sent
  | .afterRecvError | .afterSendError | .afterSourceShut => p.closed = false
  | .ended .endOfStream => p.closed = true
  | .ended _ => p.closed = false

/-- Direction `d` of the session is the pipe `p`. -/
structure Carries (d : Side) (s : State) (p : Pipe UInt8 bufferSize) : Prop where
  replay : Pipe.machine.run Pipe.empty (history d s.trace) = some p
  control : Matches (s.relay d) p
  buffer : (s.relay d).buffer.length = bufferSize
  source : p.taken = (s.socket d).arrived.take (s.socket d).taken
  arrived : (s.socket d).taken ≤ (s.socket d).arrived.length

theorem Carries.extend {d : Side} {s t : State} {p q : Pipe UInt8 bufferSize} {c : Call}
    {e : Pipe.Event UInt8} (carries : Carries d s p) (trace : t.trace = s.trace ++ [c])
    (event : pipeEvent d c = some e) (moved : p.step e = some q) :
    Pipe.machine.run Pipe.empty (history d t.trace) = some q := by
  have one : history d [c] = [e] := by simp [history, event]
  rw [trace, history_append, one]
  exact Machine.run_snoc carries.replay moved

/-- A step left direction `d` alone: its relay, its calls and its source. -/
structure Untouched (d : Side) (s t : State) : Prop where
  relay : t.relay d = s.relay d
  calls : history d t.trace = history d s.trace
  arrived : (t.socket d).arrived = (s.socket d).arrived
  taken : (t.socket d).taken = (s.socket d).taken

theorem Carries.untouched {d : Side} {s t : State} {p : Pipe UInt8 bufferSize}
    (carries : Carries d s p) (same : Untouched d s t) : Carries d t p := by
  refine ⟨?_, ?_, ?_, ?_, ?_⟩
  · rw [same.calls]; exact carries.replay
  · rw [same.relay]; exact carries.control
  · rw [same.relay]; exact carries.buffer
  · rw [same.arrived, same.taken]; exact carries.source
  · rw [same.arrived, same.taken]; exact carries.arrived

/-- The opposite relay reads the other socket and sends to this one's source. -/
theorem relayStep_untouched {d : Side} {s t : State} {result : Int}
    (moved : relayStep s d.other result = some t) : Untouched d s t := by
  cases relayStep_move moved <;> constructor <;> simp [history, pipeEvent, Socket.shutdownBoth]

/-- The rule for a call that takes nothing in from the source. -/
theorem Carries.emit {d : Side} {s t : State} {p q : Pipe UInt8 bufferSize} {c : Call}
    {e : Pipe.Event UInt8} (carries : Carries d s p) (trace : t.trace = s.trace ++ [c])
    (event : pipeEvent d c = some e) (moved : p.step e = some q) (same : q.taken = p.taken)
    (buffer : (t.relay d).buffer = (s.relay d).buffer)
    (arrived : (t.socket d).arrived = (s.socket d).arrived)
    (taken : (t.socket d).taken = (s.socket d).taken) (control : Matches (t.relay d) q) :
    Carries d t q where
  replay := carries.extend trace event moved
  control := control
  buffer := by rw [buffer, carries.buffer]
  source := by rw [same, arrived, taken, carries.source]
  arrived := by
    rw [arrived, taken]
    exact carries.arrived

/-- As many bytes as a `Send` may accept are still in the buffer. -/
theorem sent_chunk_length {r : Relay} {size sent n : Nat} (within : size ≤ r.buffer.length)
    (fits : n ≤ size - sent) : (((r.buffer.take size).drop sent).take n).length = n := by
  simp only [List.length_take, List.length_drop]
  omega

/-- One call of a relay is one event of its pipe, or none. -/
theorem relayStep_carries {d : Side} {s t : State} {p : Pipe UInt8 bufferSize} {result : Int}
    (carries : Carries d s p) (moved : relayStep s d result = some t) :
    ∃ q, Carries d t q := by
  have control := carries.control
  have size := carries.buffer
  have bound := carries.arrived
  have source := carries.source
  cases relayStep_move moved with
  | recvEnd pc _ | recvError pc _ =>
    -- nothing was read: the pipe takes the empty chunk
    simp only [Matches, pc] at control
    obtain ⟨opened, dry⟩ := control
    obtain ⟨q, event, still, pending, same⟩ :=
      Pipe.step_take [] opened (by simp [dry])
    simp only [dry, List.append_nil] at pending same
    refine ⟨q, carries.emit rfl (by simp [pipeEvent]) event same (by simp) (by simp) (by simp) ?_⟩
    simp [Matches, still, pending]
  | @recvChunk n pc positive fits available =>
    simp only [Matches, pc] at control
    obtain ⟨opened, dry⟩ := control
    have len : (((s.socket d).arrived.drop (s.socket d).taken).take n).length = n := by
      simp only [List.length_take, List.length_drop]
      omega
    obtain ⟨q, event, still, pending, all⟩ := Pipe.step_take
      (((s.socket d).arrived.drop (s.socket d).taken).take n) opened
      (by simp only [dry, List.nil_append, len]; exact fits)
    simp only [dry, List.nil_append] at pending
    refine ⟨q, carries.extend rfl (by simp [pipeEvent]) event, ?_, ?_, ?_, ?_⟩
    · -- the chunk overwrites the beginning of the buffer and is all that is pending
      simp only [Matches, State.setRelay, Function.update_self]
      refine ⟨still, positive, ?_, ?_⟩
      · simp only [List.length_append, len]
        omega
      · rw [pending, List.drop_zero, List.take_left' len]
    · simp only [State.setRelay, Function.update_self, List.length_append, len, List.length_drop]
      omega
    · simp [all, source, List.take_add]
    · simpa using available
  | @sendError sz sent _ pc refused =>
    -- a refused `Send` accepts the empty chunk
    simp only [Matches, pc] at control
    obtain ⟨opened, _⟩ := control
    obtain ⟨q, event, still, _, same⟩ := Pipe.step_accept [] opened List.nil_prefix
    refine ⟨q, carries.emit rfl (by simp [pipeEvent]) event same (by simp) (by simp) (by simp) ?_⟩
    simp [Matches, still]
  | @sendPart sz sent n pc positive remains =>
    simp only [Matches, pc] at control
    obtain ⟨opened, before, within, held⟩ := control
    obtain ⟨q, event, still, pending, same⟩ := Pipe.step_accept
      ((((s.relay d).buffer.take sz).drop sent).take n) opened
      (by rw [held]; exact List.take_prefix _ _)
    have len := sent_chunk_length within (by omega : n ≤ sz - sent)
    refine ⟨q, carries.emit rfl (by simp [pipeEvent]) event same (by simp) (by simp) (by simp) ?_⟩
    simp [Matches, still, remains, within, pending, held, len]
  | @sendRest sz sent n pc positive fits last =>
    simp only [Matches, pc] at control
    obtain ⟨opened, before, within, held⟩ := control
    obtain ⟨q, event, still, pending, same⟩ := Pipe.step_accept
      ((((s.relay d).buffer.take sz).drop sent).take n) opened
      (by rw [held]; exact List.take_prefix _ _)
    have len := sent_chunk_length within fits
    refine ⟨q, carries.emit rfl (by simp [pipeEvent]) event same (by simp) (by simp) (by simp) ?_⟩
    -- `SendAll` returns when the pipe is dry
    simp [Matches, still, pending, held, len]
    omega
  | shutdownWrite pc =>
    simp only [Matches, pc] at control
    obtain ⟨opened, dry⟩ := control
    obtain ⟨q, event, shut, same⟩ := Pipe.step_close opened dry
    refine ⟨q, carries.emit rfl (by simp [pipeEvent]) event same (by simp) (by simp) (by simp) ?_⟩
    simp [Matches, shut]
  | abandonDestination pc | abandonSource pc | abandonBoth pc =>
    -- `ShutdownBoth` is no event: the pipe stays as it is, open and perhaps not dry
    simp only [Matches, pc] at control
    refine ⟨p, ?_, ?_, ?_, ?_, ?_⟩
    · simpa [history, pipeEvent, List.filterMap_cons] using carries.replay
    · simp [Matches, control]
    · simpa using size
    · simpa [Socket.shutdownBoth] using source
    · simpa [Socket.shutdownBoth] using bound

theorem carries_initial (d : Side) : Carries d initial Pipe.empty := by
  refine ⟨rfl, ⟨rfl, rfl⟩, ?_, rfl, Nat.le_refl _⟩
  simp [initial]

/-- A thread that starts finds its pipe as it was when the session was made. -/
theorem Carries.start {d : Side} {s t : State} {p : Pipe UInt8 bufferSize}
    (carries : Carries d s p) (fresh : (s.relay d).pc = .notStarted) (calls : t.trace = s.trace)
    (sockets : t.socket = s.socket) (relay : t.relay d = { s.relay d with pc := .recv }) :
    Carries d t p := by
  refine ⟨by rw [calls]; exact carries.replay, ?_, ?_, ?_, ?_⟩
  · have control := carries.control
    simp only [Matches, fresh] at control
    simp [Matches, relay, control]
  · simpa [relay] using carries.buffer
  · rw [sockets]; exact carries.source
  · rw [sockets]; exact carries.arrived

/-- Both directions stay pipes, whichever actor moves. -/
theorem carries_step {s t : State} {a : Action} (threads : Control s)
    (carried : ∀ d, ∃ p, Carries d s p) (moved : step s a = some t) (d : Side) :
    ∃ q, Carries d t q := by
  obtain ⟨p, carries⟩ := carried d
  cases a with
  | relay e result =>
    rcases Side.eq_or_other e d with rfl | rfl
    · exact relayStep_carries carries moved
    · -- the opposite relay
      exact ⟨p, carries.untouched (relayStep_untouched (by simpa [step] using moved))⟩
  | worker =>
    have fresh := (threads.started d).mpr
    refine ⟨p, ?_⟩
    cases workerStep_move moved with
    | startUpstream pc =>
      -- the thread that reads the client starts, the other direction is left alone
      cases d with
      | client => exact carries.start (fresh (by simp [pc, WorkerPc.started])) rfl rfl (by simp)
      | upstream => exact carries.untouched ⟨by simp, rfl, rfl, rfl⟩
    | startDownstream pc =>
      cases d with
      | client => exact carries.untouched ⟨by simp, rfl, rfl, rfl⟩
      | upstream => exact carries.start (fresh (by simp [pc, WorkerPc.started])) rfl rfl (by simp)
    | @close side _ _ =>
      apply carries.untouched
      rcases Side.eq_or_other side d with rfl | rfl <;>
        constructor <;> simp [history, pipeEvent, List.filterMap_cons]
    | invalidateClient | invalidateUpstream =>
      apply carries.untouched
      cases d <;> constructor <;> simp
    | _ => exact carries.untouched ⟨rfl, rfl, rfl, rfl⟩
  | stop =>
    refine ⟨p, carries.untouched ?_⟩
    cases stopStep_move moved <;> constructor <;> simp only [shutdownMember] <;> (try split) <;>
      cases d <;> simp [history, pipeEvent, List.filterMap_cons, Socket.shutdownBoth]
  | callStop =>
    refine ⟨p, carries.untouched ?_⟩
    rcases callStop_move moved with ⟨-, rfl⟩ | ⟨-, rfl⟩ <;> exact ⟨rfl, rfl, rfl, rfl⟩
  | arrive side bytes =>
    obtain ⟨-, rfl⟩ := arrive_move moved
    refine ⟨p, ?_⟩
    rcases Side.eq_or_other side d with rfl | rfl
    · refine ⟨carries.replay, carries.control, carries.buffer, ?_, ?_⟩
      · simpa [List.take_append_of_le_length carries.arrived] using carries.source
      · have := carries.arrived
        simp only [State.setSocket, Function.update_self, List.length_append]
        omega
    · exact carries.untouched ⟨rfl, rfl, by simp, by simp⟩
  | finishStream side | peerReset side =>
    cases moved
    refine ⟨p, carries.untouched ?_⟩
    rcases Side.eq_or_other side d with rfl | rfl <;> constructor <;> simp

theorem carries_reached {ok : State → Action → Prop} {s : State} (reached : session.Reach ok s) :
    ∀ d, ∃ p, Carries d s p :=
  reached.invariant (P := fun s => ∀ d, ∃ p, Carries d s p)
    (by rintro _ rfl; exact fun d => ⟨_, carries_initial d⟩)
    fun _ _ _ before carried _ moved => carries_step (control_reached before) carried moved

/-- No `Recv` or `Send` fails and `Stop` is not called. -/
def unfailing (s : State) : Action → Bool
  | .callStop => false
  | .relay d result =>
    match (s.relay d).pc with
    | .recv => 0 ≤ result
    | .send _ _ => 0 < result
    | _ => true
  | _ => true

abbrev Unfailing (s : State) (a : Action) : Prop := unfailing s a = true

/-- The source of `d` has ended and all of it has been read. -/
def Exhausted (d : Side) (s : State) : Prop :=
  (s.socket d).ended = true ∧ (s.socket d).taken = (s.socket d).arrived.length

/-- Control points that a run without failures can reach. -/
def RelayPc.Orderly (pc : RelayPc) (exhausted : Prop) : Prop :=
  match pc with
  | .notStarted | .recv | .send _ _ => True
  | .shutdownWrite | .ended .endOfStream => exhausted
  | _ => False

/-- Nothing has failed: reads are open and a relay leaves its loop only at the end
of its source. -/
structure Undisrupted (s : State) : Prop where
  noStop : s.stopPc = .idle
  reading : ∀ d, (s.socket d).readShut = false
  orderly : ∀ d, (s.relay d).pc.Orderly (Exhausted d s)

theorem RelayPc.Orderly.mono {pc : RelayPc} {P Q : Prop} (orderly : pc.Orderly P) (weaker : P → Q) :
    pc.Orderly Q := by
  unfold RelayPc.Orderly at orderly ⊢
  split at orderly <;> simp_all

/-- Steps that move no relay keep the order if they shut no read side and undo no
end of stream. -/
theorem Undisrupted.sockets {s t : State} (inv : Undisrupted s) (stop : t.stopPc = s.stopPc)
    (relays : t.relay = s.relay) (reading : ∀ d, (t.socket d).readShut = (s.socket d).readShut)
    (exhausted : ∀ d, Exhausted d s → Exhausted d t) : Undisrupted t := by
  refine ⟨by rw [stop]; exact inv.noStop, ?_, ?_⟩
  · intro d
    rw [reading]
    exact inv.reading d
  · intro d
    rw [relays]
    exact (inv.orderly d).mono (exhausted d)

theorem undisrupted_relay {s t : State} {d : Side} {result : Int} (inv : Undisrupted s)
    (admitted : Unfailing s (.relay d result)) (moved : RelayMove s d result t) :
    Undisrupted t := by
  have own := inv.orderly d
  have opposite := inv.orderly d.other
  have open_both := inv.reading
  refine ⟨by rw [moved.frame.2.1]; exact inv.noStop, ?_, ?_⟩
  · -- the moves that shut a read side presuppose a failure
    intro e
    have shut := open_both e
    cases moved <;> rcases Side.eq_or_other d e with rfl | rfl <;>
      simp_all [RelayPc.Orderly]
  · intro e
    rcases Side.eq_or_other d e with rfl | rfl
    · cases moved <;> simp_all [RelayPc.Orderly, Unfailing, unfailing, Exhausted]
      all_goals omega
    · cases moved <;> simp_all [Exhausted]

theorem undisrupted_step {s t : State} {a : Action} (inv : Undisrupted s)
    (admitted : Unfailing s a) (moved : step s a = some t) : Undisrupted t := by
  cases a with
  | relay d result => exact undisrupted_relay inv admitted (relayStep_move moved)
  | worker =>
    cases workerStep_move moved with
    | startUpstream | startDownstream =>
      refine ⟨inv.noStop, inv.reading, ?_⟩
      have orderly := inv.orderly
      simp only [Side.forall] at orderly ⊢
      simp_all [RelayPc.Orderly, Exhausted]
    | @close side _ _ =>
      refine inv.sockets rfl rfl ?_ ?_ <;> intro d <;>
        rcases Side.eq_or_other side d with rfl | rfl <;> simp [Exhausted]
    | invalidateClient | invalidateUpstream =>
      refine inv.sockets rfl rfl ?_ ?_ <;> intro d <;> cases d <;> simp [Exhausted]
    | _ => exact inv.sockets rfl rfl (fun _ => rfl) (fun _ => id)
  | callStop => exact absurd admitted Bool.false_ne_true
  | stop => simp [step, stopStep, inv.noStop] at moved
  | arrive side bytes =>
    simp only [step] at moved
    split at moved
    · cases moved
    next going =>
      cases moved
      refine inv.sockets rfl rfl ?_ ?_ <;> intro d <;>
        rcases Side.eq_or_other side d with rfl | rfl <;> simp_all [Exhausted]
  | finishStream side | peerReset side =>
    cases moved
    refine inv.sockets rfl rfl ?_ ?_ <;> intro d <;>
      rcases Side.eq_or_other side d with rfl | rfl <;> simp_all [Exhausted]

theorem undisrupted_reached {s : State} (reached : session.Reach Unfailing s) : Undisrupted s := by
  refine reached.invariant ?_ fun s t a _ inv admitted moved => undisrupted_step inv admitted moved
  rintro _ rfl
  exact ⟨rfl, fun _ => rfl, fun _ => trivial⟩

/-- A direction that ended in order has closed its pipe with everything through. -/
theorem Carries.complete {d : Side} {s : State} {p : Pipe UInt8 bufferSize}
    (carries : Carries d s p) (inv : Undisrupted s) (ended : (s.relay d).pc.hasEnded = true) :
    (s.socket d).ended = true ∧ delivered d s.trace = (s.socket d).arrived := by
  have orderly := inv.orderly d
  have control := carries.control
  cases pc : (s.relay d).pc with
  | ended ending =>
    cases ending with
    | endOfStream =>
      simp only [RelayPc.Orderly, pc] at orderly
      simp only [Matches, pc] at control
      obtain ⟨all, out⟩ := Pipe.run_empty carries.replay
      have source := carries.source
      -- all of the source has been taken, and the closed pipe holds nothing back
      rw [orderly.2, List.take_length] at source
      refine ⟨orderly.1, ?_⟩
      calc delivered d s.trace = p.accepted := by rw [← acceptedBy_history, out]
        _ = p.taken := by rw [Pipe.taken, p.drained control, List.append_nil]
        _ = (s.socket d).arrived := source
    | recvFailed | sendFailed => simp [RelayPc.Orderly, pc] at orderly
  | _ => simp [pc, RelayPc.hasEnded] at ended

/-- Stream fidelity with half-close. In every state of every run the bytes accepted
by a destination are a beginning of the bytes read from its source, at most one
buffer behind; writing to a destination is shut down at most once, when everything
read has been accepted, and ends all calls of that direction; and if nothing fails and
`Stop` is not called, a direction that has ended has delivered its whole source. -/
theorem session_fidelity (s : State) (d : Side) :
    (session.Reach Machine.anyStep s →
      (delivered d s.trace <+: received d s.trace ∧
        received d s.trace <+: (s.socket d).arrived ∧
        (received d s.trace).length ≤ (delivered d s.trace).length + 16384) ∧
      ∀ before after, s.trace = before ++ .shutdownWrite d.other :: after →
        delivered d before = received d before ∧ ∀ c ∈ after, c.writesTo d.other = false) ∧
    (session.Reach Unfailing s → (s.relay d).pc.hasEnded = true →
      (s.socket d).ended = true ∧ delivered d s.trace = (s.socket d).arrived) := by
  constructor
  · intro reached
    obtain ⟨p, carries⟩ := carries_reached reached d
    obtain ⟨follows, lag⟩ := Pipe.accepted_follows carries.replay
    rw [acceptedBy_history, takenBy_history] at follows lag
    obtain ⟨all, _⟩ := Pipe.run_empty carries.replay
    rw [takenBy_history] at all
    refine ⟨⟨follows, ?_, lag⟩, ?_⟩
    · have source := carries.source
      rw [Pipe.taken, ← all] at source
      rw [source]
      exact List.take_prefix _ _
    · -- replay the history up to the shutdown and from there on
      intro before after shape
      have replay := carries.replay
      have close : history d (.shutdownWrite d.other :: after) = .close :: history d after := by
        simp [history, pipeEvent]
      rw [shape, history_append, close] at replay
      obtain ⟨last, through⟩ := Pipe.close_last replay
      rw [acceptedBy_history, takenBy_history] at through
      refine ⟨through, fun c member => ?_⟩
      have unused := List.filterMap_eq_nil_iff.mp last c member
      cases c <;> simp_all [pipeEvent, Call.writesTo]
  · intro reached ended
    obtain ⟨p, carries⟩ := carries_reached reached d
    exact carries.complete (undisrupted_reached reached) ended

/-- Three bytes relayed in one `Recv` and two `Send`s, then a half-close. -/
theorem session_fidelity_half_close :
    ∃ s, session.Reach Unfailing s ∧ (s.relay .client).pc = .ended .endOfStream ∧
      (s.relay .upstream).pc = .recv ∧ delivered .client s.trace = (s.socket .client).arrived ∧
      (s.socket .client).arrived = [1, 2, 3] := by
  let script : List Action := [.worker, .worker, .arrive .client [1, 2, 3], .finishStream .client,
    .relay .client 3, .relay .client 2, .relay .client 1, .relay .client 0, .relay .client 0]
  obtain ⟨s, run⟩ : ∃ s, session.runIf Unfailing initial script = some s := ⟨_, rfl⟩
  have result : ((session.runIf Unfailing initial script).map fun s =>
      ((s.relay .client).pc, (s.relay .upstream).pc, (s.socket .client).arrived)) =
      some (.ended .endOfStream, .recv, [1, 2, 3]) := rfl
  rw [run] at result
  simp only [Option.map_some, Option.some.injEq, Prod.mk.injEq] at result
  have reached : session.Reach Unfailing s := Machine.Reach.runIf (.start rfl) run
  have complete := (session_fidelity s .client).2 reached (by rw [result.1]; rfl)
  exact ⟨s, reached, result.1, result.2.1, complete.2, result.2.2⟩

end PortForwardX.Tcp
