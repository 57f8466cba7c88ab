import PortForwardX.Transition.Observed
import PortForwardX.TcpForwarder.Conservation
import PortForwardX.Tcp.Progress
import Mathlib.Data.List.Forall2
import Mathlib.Data.List.Pairwise

/-!
# Which client is connected with which target

An observer notes what the calls of the accept thread report. From its notes it can be told
whose connection every socket is: a session stands between one accepted client and one
connection to a target that was read for that client, and every label in `session_peers_` and
in a cleanup's list is the label of the client whose session it stands for.
-/
namespace PortForwardX.TcpForwarder

open Transition Net

variable {p : Setup} {s t : State} {c c' : Cleanup} {a : Answer} {action : Action}
  {ref r : SessionRef}

/-- What the accept thread learns: a client, the target list for a client, a socket made for an
endpoint of that list, and the success of its `connect`. -/
inductive Event where
  | accepted (client : SocketId) (peer : SockAddr)
  | read (client : SocketId) (endpoints : List ResolvedEndpoint)
  | opened (upstream client : SocketId) (endpoint : ResolvedEndpoint)
  | connected (upstream : SocketId)
  deriving DecidableEq, Repr

/-- What a step adds to the notes. -/
def heard (s : State) : Action → List Event
  | .accept a =>
    match s.accept, a with
    | .callAccept, .accepted peer => [.accepted s.nextSocket peer]
    | .snapshot client _, _ | .snapshotAgain client _, _ => [.read client s.targetEndpoints]
    | .makeSocket client _ (endpoint :: _), .made => [.opened s.nextSocket client endpoint]
    | .connect _ _ candidate _, .connected => [.connected candidate]
    | _, _ => []
  | _ => []

/-- The forwarder with its observer. -/
def journaled (p : Setup) : Machine (State × List Event) Action :=
  (forwarder p).observed (fun _ j => j = []) fun s action j => j ++ heard s action

/-- An endpoint of a list that was read for a client. -/
def Offered (j : List Event) (client : SocketId) (endpoint : ResolvedEndpoint) : Prop :=
  ∃ endpoints, .read client endpoints ∈ j ∧ endpoint ∈ endpoints

/-- `upstream` is a connection to `endpoint` made for the client at `peer`, which `client` is the
connection of. -/
structure Connects (j : List Event) (client upstream : SocketId) (peer : SockAddr)
    (endpoint : ResolvedEndpoint) : Prop where
  accepted : .accepted client peer ∈ j
  offered : Offered j client endpoint
  opened : .opened upstream client endpoint ∈ j
  connected : .connected upstream ∈ j

/-- `label` is the text for the client of a session. -/
def Labelled (p : Setup) (s : State) (j : List Event) (ref : SessionRef) (label : String) : Prop :=
  ref < s.nextRef ∧ ∃ peer, .accepted ((s.heap ref).socket .client) peer ∈ j ∧
    label = endpointToString p.getnameinfo peer

variable {j k : List Event} {client upstream : SocketId} {peer : SockAddr}
  {endpoint : ResolvedEndpoint} {label : String}

theorem Offered.mono (offered : Offered j client endpoint) (more : j ⊆ k) :
    Offered k client endpoint :=
  offered.imp fun _ read => read.imp_left fun noted => more noted

theorem Connects.mono (connects : Connects j client upstream peer endpoint) (more : j ⊆ k) :
    Connects k client upstream peer endpoint where
  accepted := more connects.accepted
  offered := connects.offered.mono more
  opened := more connects.opened
  connected := more connects.connected

theorem Labelled.mono (labelled : Labelled p s j ref label) (made : s.nextRef ≤ t.nextRef)
    (same : ∀ r < s.nextRef, (t.heap r).socket = (s.heap r).socket) (more : j ⊆ k) :
    Labelled p t k ref label := by
  obtain ⟨old, peer, accepted, text⟩ := labelled
  refine ⟨Nat.lt_of_lt_of_le old made, peer, ?_, text⟩
  rw [same ref old]
  exact more accepted

/-! ### The connection that is set up -/

/-- What the notes say about the connection at a control point of the accept thread. -/
def AcceptPc.Heard (s : State) (j : List Event) : AcceptPc → Prop
  | .snapshot client peer | .refresh client peer | .snapshotAgain client peer =>
    .accepted client peer ∈ j
  | .makeSocket client peer endpoints =>
    .accepted client peer ∈ j ∧ ∀ e ∈ endpoints, Offered j client e
  | .connect client peer candidate rest | .closeCandidate client peer candidate rest =>
    .accepted client peer ∈ j ∧ (∀ e ∈ rest, Offered j client e) ∧
      ∃ e, Offered j client e ∧ .opened candidate client e ∈ j
  | .lock client upstream peer | .count client upstream peer | .make client upstream peer _ =>
    ∃ e, Connects j client upstream peer e
  | .insertSession ref peer id | .insertPeer ref peer id =>
    id.toNat = ref + 1 ∧ ref < s.nextRef ∧ .accepted ((s.heap ref).socket .client) peer ∈ j
  | _ => True

/-- Steps of others change nothing about it. -/
theorem AcceptPc.Heard.mono {pc : AcceptPc} (heard : pc.Heard s j) (made : s.nextRef ≤ t.nextRef)
    (same : ∀ r < s.nextRef, (t.heap r).socket = (s.heap r).socket) (more : j ⊆ k) :
    pc.Heard t k := by
  cases pc with
  | snapshot | refresh | snapshotAgain => exact more heard
  | makeSocket => exact ⟨more heard.1, fun e member => (heard.2 e member).mono more⟩
  | connect | closeCandidate =>
    obtain ⟨accepted, rest, e, offered, opened⟩ := heard
    exact ⟨more accepted, fun e member => (rest e member).mono more, e, offered.mono more,
      more opened⟩
  | lock | count | make => exact heard.imp fun _ connects => connects.mono more
  | insertSession ref | insertPeer ref =>
    obtain ⟨id, old, accepted⟩ := heard
    refine ⟨id, Nat.lt_of_lt_of_le old made, ?_⟩
    rw [same ref old]
    exact more accepted
  | _ => trivial

/-- The accept thread takes a step. -/
theorem AcceptMove.setup (move : AcceptMove p s a t) (table : Table s)
    (before : s.accept.Heard s j) : t.accept.Heard t (j ++ heard s (.accept a)) := by
  have more : j ⊆ j ++ heard s (.accept a) := List.subset_append_left _ _
  cases move with
  -- the event is the one just noted
  | accepted pc => simp [heard, pc, AcceptPc.Heard]
  | snapshotEmpty pc | refreshed pc | notRefreshed pc =>
    rw [pc] at before
    exact more before
  | @snapshot _ client peer pc | @snapshotAgain _ client peer pc =>
    rw [pc] at before
    refine ⟨more before, fun e member => ⟨s.targetEndpoints, ?_, member⟩⟩
    simp [heard, pc]
  | @made client peer endpoint rest pc =>
    rw [pc] at before
    obtain ⟨accepted, offered⟩ := before
    refine ⟨more accepted, fun e member => (offered e (List.mem_cons_of_mem _ member)).mono more,
      endpoint, (offered endpoint List.mem_cons_self).mono more, ?_⟩
    simp [heard, pc]
  | notMade pc =>
    rw [pc] at before
    obtain ⟨accepted, offered⟩ := before
    exact ⟨more accepted, fun e member => (offered e (List.mem_cons_of_mem _ member)).mono more⟩
  | connected pc =>
    rw [pc] at before
    obtain ⟨accepted, -, e, offered, opened⟩ := before
    exact ⟨e, more accepted, offered.mono more, more opened, by simp [heard, pc]⟩
  | closeCandidate pc =>
    rw [pc] at before
    exact ⟨more before.1, fun e member => (before.2.1 e member).mono more⟩
  | @make _ client upstream peer id pc =>
    have numbering := table.numbering
    rw [pc] at numbering before
    obtain ⟨e, connects⟩ := before
    -- from here on the session stands for its two sockets
    refine ⟨numbering.2, Nat.lt_succ_self _, more ?_⟩
    simpa [ForwardSession.new] using connects.accepted
  | notConnected pc | lock pc | count pc | insertSession pc =>
    rw [pc] at before
    exact @AcceptPc.Heard.mono _ _ _ _ _ before (Nat.le_refl _) (fun _ _ => rfl) more
  | cleaned | retest =>
    dsimp only [State.goto]
    split <;> trivial
  | throws pc => simp [pc, AcceptPc.Heard]
  | _ => trivial

/-! ### Sessions -/

theorem Move.sessions_connected (move : Move p s action t) (setup : s.accept.Heard s j)
    (before : ∀ ref < s.nextRef, ∃ peer endpoint,
      Connects j ((s.heap ref).socket .client) ((s.heap ref).socket .upstream) peer endpoint) :
    ∀ ref < t.nextRef, ∃ peer endpoint, Connects (j ++ heard s action)
      ((t.heap ref).socket .client) ((t.heap ref).socket .upstream) peer endpoint := by
  have more : j ⊆ j ++ heard s action := List.subset_append_left _ _
  intro ref made
  by_cases old : ref < s.nextRef
  · obtain ⟨peer, endpoint, connects⟩ := before ref old
    rw [(move.advances old).1]
    exact ⟨peer, endpoint, connects.mono more⟩
  · -- a session has just been made, of the two sockets in hand
    obtain ⟨_, _, rfl, -⟩ := move.madeSession made old
    cases move with
    | accept move =>
      cases move with
      | @make _ client upstream peer id pc =>
        rw [pc] at setup
        obtain ⟨endpoint, connects⟩ := setup
        refine ⟨peer, endpoint, ?_⟩
        simpa [ForwardSession.new] using connects.mono more
      | clean pc unfinished move =>
        rw [State.goto, move.frame.2.2.2.1] at made
        exact absurd made old
      | _ => exact absurd made old
    | stop move =>
      cases move with
      | join _ moved | destructor _ _ moved =>
        obtain ⟨heap, joins, rfl⟩ := State.join_frame moved
        exact absurd made old
      | _ => exact absurd made old
    | _ => exact absurd made old

/-! ### Labels -/

/-- What a cleanup does to the labels: it moves one from the map to its list at most. -/
theorem CleanupMove.labels (move : CleanupMove s c a t c') :
    (t.sessionPeers = s.sessionPeers ∧ c'.finishedSessions = c.finishedSessions ∧
        c'.finishedPeers = c.finishedPeers) ∨
      ∃ id ref, c.pc = .erase id ref ∧
        t.sessionPeers = s.sessionPeers.filter (fun entry => entry.1 != id) ∧
        c'.finishedSessions = c.finishedSessions ++ [ref] ∧
        c'.finishedPeers = c.finishedPeers ++ [(s.sessionPeers.lookup id).getD "unknown"] := by
  cases move with
  | erase pc => exact .inr ⟨_, _, pc, rfl, rfl, rfl⟩
  | join _ moved | destructor _ _ moved =>
    obtain ⟨heap, joins, rfl⟩ := State.join_frame moved
    exact .inl ⟨rfl, rfl, rfl⟩
  | _ => exact .inl ⟨rfl, rfl, rfl⟩

/-- The labels that are kept are those of the clients whose sessions they stand for. -/
structure Labels (p : Setup) (s : State) (j : List Event) : Prop where
  peers : ∀ entry ∈ s.sessionPeers, ∃ ref, entry.1.toNat = ref + 1 ∧ Labelled p s j ref entry.2
  finished : ∀ c, s.accept = .cleanup c →
    List.Forall₂ (Labelled p s j) c.finishedSessions c.finishedPeers

/-- Outside the making of a session, an entry of `sessions_` has a label. -/
theorem Labels.lookup {id : UInt64} (labels : Labels p s j) (table : Table s) (locks : Locks s)
    (pc : s.accept = .cleanup c) (listed : (id, ref) ∈ s.sessions) :
    ∃ label, s.sessionPeers.lookup id = some label ∧ Labelled p s j ref label := by
  -- `Stop` clears the maps only after the accept thread has ended
  have uncleared : s.stop.clearing = false := by
    by_contra clearing
    have past : s.stop.pastAccept = true := by
      refine StopPc.pastAccept_of_cleared ?_
      cases stop : s.stop <;> simp_all [StopPc.clearing, StopPc.cleared]
    have exited := locks.exited past
    rw [pc] at exited
    cases exited
  have keys : id ∈ s.peerKeys := by
    have paired : s.keys = s.peerKeys := by
      simpa [pc, AcceptPc.unpaired] using table.paired uncleared
    exact paired ▸ List.mem_map_of_mem (f := Prod.fst) listed
  obtain ⟨label, found⟩ : ∃ label, s.sessionPeers.lookup id = some label := by
    refine Option.isSome_iff_exists.mp (List.lookup_isSome_iff.mpr ?_)
    obtain ⟨entry, member, same⟩ := List.mem_map.mp keys
    exact ⟨entry, member, by simp [same]⟩
  obtain ⟨before, after, whole, -⟩ := List.lookup_eq_some_iff.mp found
  obtain ⟨r, number, labelled⟩ := labels.peers (id, label) (by simp [whole])
  have number' := table.numbered _ listed
  obtain rfl : r = ref := by
    dsimp only at number number'
    omega
  exact ⟨label, found, labelled⟩

/-- The map of labels grows by the one that is inserted at most. -/
theorem Move.sessionPeers (move : Move p s action t) :
    t.sessionPeers ⊆ s.sessionPeers ∨ ∃ ref peer id, s.accept = .insertPeer ref peer id ∧
      t.sessionPeers ⊆ (id, endpointToString p.getnameinfo peer) :: s.sessionPeers := by
  have kept {id : UInt64} : s.sessionPeers.filter (fun entry => entry.1 != id) ⊆ s.sessionPeers :=
    fun entry member => List.mem_of_mem_filter member
  cases move with
  | accept move =>
    cases move with
    | clean pc unfinished move =>
      rcases move.labels with ⟨same, -⟩ | ⟨id, ref, -, erased, -⟩
      · exact .inl fun entry member => same ▸ member
      · refine .inl ?_
        rw [State.goto, erased]
        exact kept
    | @insertPeer _ ref peer id pc =>
      exact .inr ⟨ref, peer, id, pc, List.cons_subset_cons _ kept⟩
    | _ => exact .inl (List.Subset.refl _)
  | stop move =>
    cases move with
    | join _ moved | destructor _ _ moved =>
      obtain ⟨heap, joins, rfl⟩ := State.join_frame moved
      exact .inl (List.Subset.refl _)
    | clearPeers => exact .inl (List.nil_subset _)
    | _ => exact .inl (List.Subset.refl _)
  | _ => exact .inl (List.Subset.refl _)

/-- A cleanup in progress has begun with empty lists or goes on from the step before. -/
theorem Move.finishing (move : Move p s action t) (pc : t.accept = .cleanup c') :
    (c'.finishedSessions = [] ∧ c'.finishedPeers = []) ∨
      ∃ c, s.accept = .cleanup c ∧
        ((c'.finishedSessions = c.finishedSessions ∧ c'.finishedPeers = c.finishedPeers) ∨
          ∃ id ref, c.pc = .erase id ref ∧ c'.finishedSessions = c.finishedSessions ++ [ref] ∧
            c'.finishedPeers = c.finishedPeers ++ [(s.sessionPeers.lookup id).getD "unknown"]) := by
  have goes_on (same : t.accept = s.accept) : ∃ c, s.accept = .cleanup c ∧
      ((c'.finishedSessions = c.finishedSessions ∧ c'.finishedPeers = c.finishedPeers) ∨
        ∃ id ref, c.pc = .erase id ref ∧ c'.finishedSessions = c.finishedSessions ++ [ref] ∧
          c'.finishedPeers = c.finishedPeers ++ [(s.sessionPeers.lookup id).getD "unknown"]) :=
    ⟨c', same ▸ pc, .inl ⟨rfl, rfl⟩⟩
  cases move with
  | accept move =>
    cases move with
    | @clean _ c _ u here unfinished move =>
      cases pc
      refine .inr ⟨c, here, ?_⟩
      rcases move.labels with ⟨-, sessions, peers⟩ | ⟨id, ref, erasing, -, sessions, peers⟩
      · exact .inl ⟨sessions, peers⟩
      · exact .inr ⟨id, ref, erasing, sessions, peers⟩
    | test =>
      cases pc
      exact .inl ⟨rfl, rfl⟩
    | retest =>
      dsimp only [State.goto] at pc
      split at pc <;> cases pc
      exact .inl ⟨rfl, rfl⟩
    | cleaned =>
      dsimp only [State.goto] at pc
      split at pc <;> cases pc
    | throws => exact .inr (goes_on rfl)
    | _ => cases pc
  | stop move => exact .inr (goes_on move.frame.1)
  | _ => exact .inr (goes_on rfl)

theorem Holding.made_le (holding : Holding s t) : s.nextRef ≤ t.nextRef := by
  cases holding with
  | handed _ _ _ _ _ next => exact next ▸ Nat.le_succ _
  | kept _ _ next | opened _ _ next | closed _ _ _ next | sessionClosed _ _ _ _ _ _ _ next =>
    exact next.ge

theorem Move.labels (move : Move p s action t) (before : Labels p s j) (setup : s.accept.Heard s j)
    (made : s.nextRef ≤ t.nextRef) (table : Table s) (locks : Locks s) (reaping : Reaping s) :
    Labels p t (j ++ heard s action) := by
  have old {ref : SessionRef} {label : String} (labelled : Labelled p s j ref label) :
      Labelled p t (j ++ heard s action) ref label :=
    labelled.mono made (fun r made => (move.advances made).1) (List.subset_append_left _ _)
  constructor
  · intro entry member
    have known (earlier : entry ∈ s.sessionPeers) :
        ∃ ref, entry.1.toNat = ref + 1 ∧ Labelled p t (j ++ heard s action) ref entry.2 :=
      (before.peers entry earlier).imp fun _ ⟨number, labelled⟩ => ⟨number, old labelled⟩
    rcases move.sessionPeers with fewer | ⟨ref, peer, id, pc, more⟩
    · exact known (fewer member)
    · rcases List.mem_cons.mp (more member) with rfl | earlier
      · rw [pc] at setup
        obtain ⟨number, made, accepted⟩ := setup
        exact ⟨ref, number, old ⟨made, peer, accepted, rfl⟩⟩
      · exact known earlier
  · intro c' pc
    rcases move.finishing pc with ⟨sessions, peers⟩ | ⟨c, before_, same | erased⟩
    · rw [sessions, peers]
      exact .nil
    · rw [same.1, same.2]
      exact (before.finished c before_).imp fun _ _ => old
    · obtain ⟨id, ref, erasing, sessions, peers⟩ := erased
      -- the entry has not left the map yet
      have listed : (id, ref) ∈ s.sessions := by
        have account := reaping.account c before_ (by simp [erasing])
        refine account.spared.mem_iff.mpr (List.mem_append_left _ (List.mem_append_right _ ?_))
        simp [erasing, CleanupPc.erasing]
      obtain ⟨label, found, labelled⟩ := before.lookup table locks before_ listed
      rw [sessions, peers, found]
      refine List.rel_append ((before.finished c before_).imp fun _ _ => old) ?_
      exact .cons (old labelled) .nil

/-! ### The order of connections -/

/-- The socket that is new in an event. -/
def Event.born : Event → Option SocketId
  | .accepted socket _ | .opened socket _ _ => some socket
  | .read _ _ | .connected _ => none

/-- Every socket that is opened is noted once, in order. -/
theorem AcceptMove.born (move : AcceptMove p s a t) :
    (t.nextSocket = s.nextSocket ∧ (heard s (.accept a)).filterMap Event.born = []) ∨
      (t.nextSocket = s.nextSocket + 1 ∧
        (heard s (.accept a)).filterMap Event.born = [s.nextSocket]) := by
  cases move with
  | accepted pc | made pc => exact .inr ⟨rfl, by simp [heard, pc, Event.born]⟩
  | clean pc unfinished move =>
    exact .inl ⟨(Conduit.Ledger.mk.inj move.holding.1).2.1, by simp [heard, pc]⟩
  | test pc | cleaned pc | notAccepted pc | retest pc | snapshotEmpty pc
  | snapshot pc | refreshed pc | notRefreshed pc | noTarget pc | snapshotAgain pc
  | unconnected pc | notMade pc | connected pc | notConnected pc | closeCandidate pc
  | closeClient pc | lock pc | count pc | make pc | insertSession pc | insertPeer pc | unlock pc
  | started pc | throws pc => exact .inl ⟨rfl, by simp [heard, pc, Event.born]⟩

theorem Move.births (move : Move p s action t)
    (before : j.filterMap Event.born = List.range s.nextSocket) :
    (j ++ heard s action).filterMap Event.born = List.range t.nextSocket := by
  rw [List.filterMap_append, before]
  cases move with
  | accept move =>
    rcases move.born with ⟨same, none_⟩ | ⟨next, one⟩
    · rw [same, none_, List.append_nil]
    · rw [next, one, List.range_succ]
  | stop move =>
    have same : t.nextSocket = s.nextSocket := by
      cases move with
      | join _ moved | destructor _ _ moved =>
        obtain ⟨heap, joins, rfl⟩ := State.join_frame moved
        rfl
      | _ => rfl
    simp [heard, same]
  | _ => simp [heard, State.advance]

/-- A socket is born in one event. -/
theorem born_once {x y : Event} {socket : SocketId}
    (births : (j.filterMap Event.born).Nodup) (left : x ∈ j) (right : y ∈ j)
    (first : x.born = some socket) (second : y.born = some socket) : x = y := by
  by_contra other
  have apart : j.Pairwise fun x y => ∀ k, x.born = some k → ∀ l, y.born = some l → k ≠ l :=
    List.pairwise_filterMap.mp births
  have symmetric : Std.Symm fun x y : Event =>
      ∀ k, x.born = some k → ∀ l, y.born = some l → k ≠ l :=
    ⟨fun _ _ apart k first l second => (apart l second k first).symm⟩
  exact apart.forall left right other socket first socket second rfl

/-- Connections are set up one after the other. -/
structure InOrder (s : State) : Prop where
  setup : ∀ ref < s.nextRef, ∀ d, ∀ k ∈ s.accept.sockets, (s.heap ref).socket d < k
  sessions : ∀ ref r, ref < r → r < s.nextRef → ∀ d e, (s.heap ref).socket d < (s.heap r).socket e

theorem Holding.inOrder (holding : Holding s t) (owned : Owned s) (before : InOrder s) :
    InOrder t := by
  obtain ⟨setup, sessions⟩ := before
  cases holding with
  | kept _ sockets next same =>
    refine ⟨fun ref made d k member => ?_, fun ref r less made d e => ?_⟩
    · rw [(same ref).1]
      exact setup ref (next ▸ made) d k (sockets ▸ member)
    · rw [(same ref).1, (same r).1]
      exact sessions ref r less (next ▸ made) d e
  | opened _ sockets next same =>
    refine ⟨fun ref made d k member => ?_, fun ref r less made d e => ?_⟩
    · rw [sockets] at member
      rw [same]
      rcases List.mem_append.mp member with old | new
      · exact setup ref (next ▸ made) d k old
      · obtain rfl := List.mem_singleton.mp new
        exact owned.made ref (next ▸ made) d
    · rw [same]
      exact sessions ref r less (next ▸ made) d e
  | closed k _ sockets next same =>
    refine ⟨fun ref made d k member => ?_, fun ref r less made d e => ?_⟩
    · rw [same]
      exact setup ref (next ▸ made) d k (sockets ▸ List.mem_append_left _ member)
    · rw [same]
      exact sessions ref r less (next ▸ made) d e
  | handed client upstream _ held after next heap =>
    refine ⟨fun ref made d k member => ?_, fun ref r less made d e => ?_⟩
    · rw [after] at member
      cases member
    · rw [next] at made
      have older : ref < s.nextRef := Nat.lt_of_lt_of_le less (Nat.le_of_lt_succ made)
      rw [heap, Function.update_of_ne (Nat.ne_of_lt older)]
      by_cases new : r = s.nextRef
      · -- the new session takes over the sockets in hand
        subst new
        rw [Function.update_self]
        refine setup ref older d _ ?_
        rw [held]
        cases e <;> simp [ForwardSession.new]
      · rw [Function.update_of_ne new]
        exact sessions ref r less (Nat.lt_of_le_of_ne (Nat.le_of_lt_succ made) new) d e
  | sessionClosed _ _ _ _ _ _ sockets next same =>
    refine ⟨fun ref made d k member => ?_, fun ref r less made d e => ?_⟩
    · rw [same]
      exact setup ref (next ▸ made) d k (sockets ▸ member)
    · rw [same, same]
      exact sessions ref r less (next ▸ made) d e

/-! ### The invariant -/

structure Paired (p : Setup) (s : State) (j : List Event) : Prop where
  setup : s.accept.Heard s j
  sessions : ∀ ref < s.nextRef, ∃ peer endpoint,
    Connects j ((s.heap ref).socket .client) ((s.heap ref).socket .upstream) peer endpoint
  labels : Labels p s j
  births : j.filterMap Event.born = List.range s.nextSocket
  order : InOrder s

theorem paired_reached {x : State × List Event}
    (reached : (journaled p).Reach (fun x => FewConnections x.1) x) : Paired p x.1 x.2 := by
  induction reached with
  | start init =>
    obtain ⟨⟨fd, outcome, endpoints, -, started_⟩, noted⟩ := init
    rw [started_, noted]
    refine ⟨trivial, fun ref made => absurd made (Nat.not_lt_zero _), ⟨?_, ?_⟩, rfl, ⟨?_, ?_⟩⟩
    · simp [started]
    · simp [started]
    · exact fun ref made => absurd made (Nat.not_lt_zero _)
    · exact fun ref r _ made => absurd made (Nat.not_lt_zero _)
  | @next x y action before admitted moved ih =>
    obtain ⟨t, k⟩ := y
    obtain ⟨stepped, rfl⟩ := Machine.observed_step.mp moved
    have few := before.unobserved FewConnections fun _ _ => id
    have move := step_move stepped
    have table := table_reached few
    have holding := move.holding fun ref made => Tcp.control_reached (session_reached few made)
    refine ⟨?_, move.sessions_connected ih.setup ih.sessions,
      move.labels ih.labels ih.setup holding.made_le table (locks_reached few)
        (reaping_reached few), move.births ih.births, holding.inOrder (owned_reached few) ih.order⟩
    have others (same : t.accept = x.1.accept) : t.accept.Heard t (x.2 ++ heard x.1 action) := by
      rw [same]
      exact ih.setup.mono holding.made_le (fun r made => (move.advances made).1)
        (List.subset_append_left _ _)
    cases move with
    | accept move => exact move.setup table ih.setup
    | stop move => exact others move.frame.1
    | _ => exact others rfl

/-- The clients of the TCP forwarder are kept apart. In every run with fewer than `2 ^ 64`
connections, with every outcome of the calls of the accept thread and every interleaving with
sessions, refreshes and `Stop`: each session stands between one accepted client and one
connection, made for that client, to one endpoint of a target list that was read for it; no
socket is in two sessions, and sessions are numbered in the order in which their clients were
accepted. In either direction a session has sent no more than the beginning of what has arrived
at the other of its two sockets. The label under a session's id and the label a cleanup
prints for it are the text of its client's address; the text `unknown` of a missing label is
never used. -/
theorem clients_paired {x : State × List Event}
    (reached : (journaled p).Reach (fun x => FewConnections x.1) x) :
    (∀ ref < x.1.nextRef,
      (∃! ends : SockAddr × ResolvedEndpoint, Connects x.2 ((x.1.heap ref).socket .client)
        ((x.1.heap ref).socket .upstream) ends.1 ends.2) ∧
      (∀ d, Tcp.delivered d (x.1.heap ref).state.trace <+:
        ((x.1.heap ref).state.socket d).arrived) ∧
      ∀ id label, (id, ref) ∈ x.1.sessions → (id, label) ∈ x.1.sessionPeers →
        id.toNat = ref + 1 ∧ Labelled p x.1 x.2 ref label) ∧
    (∀ ref < x.1.nextRef, ∀ r < x.1.nextRef, ∀ d e,
      (x.1.heap ref).socket d = (x.1.heap r).socket e → ref = r ∧ d = e) ∧
    (∀ ref r, ref < r → r < x.1.nextRef → ∀ d e,
      (x.1.heap ref).socket d < (x.1.heap r).socket e) ∧
    ∀ c, x.1.accept = .cleanup c →
      List.Forall₂ (Labelled p x.1 x.2) c.finishedSessions c.finishedPeers := by
  have few := reached.unobserved FewConnections fun _ _ => id
  obtain ⟨-, sessions, labels, births, order⟩ := paired_reached reached
  have once : (x.2.filterMap Event.born).Nodup := births ▸ List.nodup_range
  refine ⟨fun ref made => ⟨?_, ?_, fun id label listed under => ?_⟩,
    (owned_reached few).injective, order.sessions, labels.finished⟩
  · obtain ⟨peer, endpoint, connects⟩ := sessions ref made
    refine ⟨(peer, endpoint), connects, fun ⟨peer', endpoint'⟩ connects' => ?_⟩
    have client := born_once once connects'.accepted connects.accepted rfl rfl
    have upstream := born_once once connects'.opened connects.opened rfl rfl
    cases client
    cases upstream
    rfl
  · exact fun d => Tcp.delivered_arrived (session_reached few made)
  · have number := (table_reached few).numbered _ listed
    obtain ⟨r, number', labelled⟩ := labels.peers _ under
    obtain rfl : r = ref := Nat.succ.inj (number'.symm.trans number)
    exact ⟨number, labelled⟩

/-- Two clients are connected. The first session ends, and a cleanup has just taken it out. -/
def twoClients : List Action :=
  Sample.cleanup [] 4 ++ Sample.connection ++ Sample.cleanup [(1, 0)] 5 ++ Sample.connection ++
    ([.worker, .worker, .arrive .client [7], .relay .client 1, .relay .client 1] :
      List Tcp.Action).map (.session 1) ++
    Sample.sessionEnds 0 ++ Sample.cleanup [(2, 1), (1, 0)] 3

theorem clients_paired_two :
    ∃ x, (journaled Sample.setup).Reach (fun x => FewConnections x.1) x ∧ x.1.nextRef = 2 ∧
      Tcp.delivered .client (x.1.heap 1).state.trace = [7] ∧
      (∃! ends : SockAddr × ResolvedEndpoint, Connects x.2 ((x.1.heap 1).socket .client)
        ((x.1.heap 1).socket .upstream) ends.1 ends.2) ∧
      ∃ c, x.1.accept = .cleanup c ∧ c.finishedPeers = ["192.0.2.1:40000"] ∧
        List.Forall₂ (Labelled Sample.setup x.1 x.2) c.finishedSessions c.finishedPeers := by
  have result : ((journaled Sample.setup).runIf (fun x => FewConnections x.1) (Sample.initial, [])
      twoClients).map (fun x => (x.1.nextRef, Tcp.delivered .client (x.1.heap 1).state.trace,
        x.1.accept)) = some (2, [7], .cleanup ⟨false, [], [0], ["192.0.2.1:40000"], .scan⟩) := by
    decide +kernel
  obtain ⟨x, run, seen⟩ := Option.map_eq_some_iff.mp result
  simp only [Prod.mk.injEq] at seen
  obtain ⟨made, sent, pc⟩ := seen
  have first : (journaled Sample.setup).Init (Sample.initial, []) := ⟨Sample.initial_init, rfl⟩
  have reached := Machine.Reach.runIf (.start first) run
  obtain ⟨sessions, -, -, labels⟩ := clients_paired reached
  exact ⟨x, reached, made, sent, (sessions 1 (by rw [made]; decide)).1, _, pc, rfl, labels _ pc⟩

end PortForwardX.TcpForwarder
