import Dotdns.Lib.Frame
import Dotdns.Stats
import Dotdns.Listeners

/-!
# Process — connection tasks

The accept loops of the DoT and the DoH server, and the tasks they spawn,
up to the closing of each connection in the accounting. One step per
stretch of code between two await points, except that
`record_active_connection_closed` is two: it loads the gauge, and then
subtracts if what it loaded is not zero.

The headline says that the gauge is exact in every state, although any
number of tasks may stand between the load and the subtraction.
-/

namespace Dotdns

open Lib

/-- `ServerError`, as far as a connection builds it. -/
inductive ServerError where
  | io (detail : Str)
  | tls (detail : Str)
  | dns (detail : Str)
  | timeout
  deriving DecidableEq, Repr

/-- `MAX_CONCURRENT_CONNECTIONS`, of each of the two servers. -/
def maxConcurrentConnections : Nat := 4096

/-! ## Messages on a connection -/

/-- What `tokio::time::timeout` around an I/O operation gives: `none` when
the time is up first. -/
abbrev Awaited (α : Type) := Option (Except Str α)

/-- The match of `read_message` on it. -/
def Awaited.result {α : Type} : Awaited α → Except ServerError α
  | some (.ok a) => .ok a
  | some (.error e) => .error (.io e)
  | none => .error .timeout

/-- The two reads of `read_message`. -/
structure ReadIo where
  len : Awaited UInt16
  body : Nat → Awaited (List UInt8)

/-- `read_message`: the length, then as many bytes, then `from_bytes`. -/
def readMessage (fromBytes : FromBytes) (io : ReadIo) : Except ServerError (Option Message) := do
  let len ← io.len.result
  if len = 0 then .ok none
  else
    let buf ← (io.body len.toNat).result
    ((fromBytes buf).mapError .dns).map some

/-- The three writes of `write_message` are under one timeout. -/
abbrev WriteIo := List UInt8 → Awaited Unit

/-- `write_message`: prefix and message go out in one `write_all`. -/
def writeMessage (toBytes : ToBytes) (io : WriteIo) (msg : Message) : Except ServerError Unit := do
  let bytes ← (toBytes msg).mapError .dns
  -- `bytes.len() as u16`
  (io (u16Bytes (UInt16.ofNat bytes.length) ++ bytes)).result

/-! ## The tasks -/

/-- Where a connection task stands. -/
inductive TaskPhase where
  | handshake
  | reading
  | resolving (query : Message)
  | writing (response : Message)
  /-- In the HTTP server (DoH). -/
  | serving
  /-- Before `record_active_connection_closed`. -/
  | closing
  /-- In it, with what it loaded. -/
  | loaded (current : UInt64)
  | closed
  /-- The task is over and has given its permit back. -/
  | ended

/-- A spawned connection task of either server. -/
structure ConnectionTask where
  listener : Listener
  phase : TaskPhase
  /-- Ghost: how often the task has taken itself off the gauge. -/
  closes : Nat

/-- The task has not come to its close. -/
def TaskPhase.working : TaskPhase → Bool
  | .handshake | .reading | .resolving _ | .writing _ | .serving => true
  | .closing | .loaded _ | .closed | .ended => false

/-- The close is complete. -/
def TaskPhase.hasClosed : TaskPhase → Bool
  | .closed | .ended => true
  | .handshake | .reading | .resolving _ | .writing _ | .serving | .closing | .loaded _ => false

/-- The task holds a permit of its server's semaphore. -/
def TaskPhase.holdsPermit : TaskPhase → Bool
  | .ended => false
  | _ => true

theorem TaskPhase.holdsPermit_of_not_hasClosed (phase : TaskPhase)
    (h : phase.hasClosed = false) : phase.holdsPermit = true := by
  cases phase with
  | ended => cases h
  | _ => rfl

/-- What the tasks do, one await at a time. -/
inductive ConnectionTaskEvent where
  /-- A connection comes in, a permit is free, and the task is spawned. -/
  | accept (l : Listener)
  | handshake (i : Nat) (outcome : Awaited Unit)
  | read (i : Nat) (io : ReadIo)
  | resolved (i : Nat) (response : Message)
  | write (i : Nat) (io : WriteIo)
  /-- The HTTP connection of task `i` is over. -/
  | served (i : Nat) (outcome : Except Str Unit)
  | load (i : Nat)
  | subtract (i : Nat)
  | finish (i : Nat)
  /-- Other code moves the other counters to those of `m`. -/
  | elsewhere (m : Metrics)

/-- The tasks of both accept loops over one recorder. -/
structure ConnectionTasks where
  tasks : List ConnectionTask
  metrics : Metrics

namespace ConnectionTasks

/-- As `run_serve` starts: the counters are those that were saved. -/
def init (persisted : PersistedMetrics) : ConnectionTasks := ⟨[], .fromPersisted persisted⟩

/-- The permits that tasks of server `l` hold. -/
def permits (s : ConnectionTasks) (l : Listener) : Nat :=
  s.tasks.countP fun t => t.listener == l && t.phase.holdsPermit

/-- Task `i` moves on, and the counters with it. -/
def setTask (s : ConnectionTasks) (i : Nat) (t : ConnectionTask) (metrics : Metrics) :
    ConnectionTasks :=
  ⟨s.tasks.set i t, metrics⟩

/-- One step of an accept loop or of a task. -/
def step (toBytes : ToBytes) (fromBytes : FromBytes) (s : ConnectionTasks) :
    ConnectionTaskEvent → Option ConnectionTasks
  | .accept l =>
      if s.permits l < maxConcurrentConnections then
        some ⟨s.tasks ++ [⟨l, .handshake, 0⟩], s.metrics.recordAcceptedConnection⟩
      else none
  | .handshake i outcome =>
      match s.tasks[i]? with
      | some ⟨l, .handshake, n⟩ =>
          match outcome, l with
          | some (.ok ()), .dot =>
              some (s.setTask i ⟨l, .reading, n⟩ s.metrics.recordTlsHandshakeSuccess)
          | some (.ok ()), .doh =>
              some (s.setTask i ⟨l, .serving, n⟩ s.metrics.recordTlsHandshakeSuccess)
          -- no outcome: the handshake ran out of time
          | some (.error _), _ | none, _ =>
              some (s.setTask i ⟨l, .closing, n⟩ s.metrics.recordTlsHandshakeFailure)
      | _ => none
  | .read i io =>
      match s.tasks[i]? with
      | some ⟨l, .reading, n⟩ =>
          match readMessage fromBytes io with
          | .ok (some query) => some (s.setTask i ⟨l, .resolving query, n⟩ s.metrics)
          | .ok none => some (s.setTask i ⟨l, .closing, n⟩ s.metrics)
          | .error _ => some (s.setTask i ⟨l, .closing, n⟩ s.metrics.recordDnsReadFailure)
      | _ => none
  | .resolved i response =>
      match s.tasks[i]? with
      | some ⟨l, .resolving _, n⟩ => some (s.setTask i ⟨l, .writing response, n⟩ s.metrics)
      | _ => none
  | .write i io =>
      match s.tasks[i]? with
      | some ⟨l, .writing response, n⟩ =>
          match writeMessage toBytes io response with
          | .ok () => some (s.setTask i ⟨l, .reading, n⟩ s.metrics)
          | .error _ => some (s.setTask i ⟨l, .closing, n⟩ s.metrics.recordDnsWriteFailure)
      | _ => none
  | .served i _ =>
      -- an HTTP error is logged and nothing else
      match s.tasks[i]? with
      | some ⟨l, .serving, n⟩ => some (s.setTask i ⟨l, .closing, n⟩ s.metrics)
      | _ => none
  | .load i =>
      match s.tasks[i]? with
      | some ⟨l, .closing, n⟩ =>
          some (s.setTask i ⟨l, .loaded s.metrics.activeConnections, n⟩ s.metrics)
      | _ => none
  | .subtract i =>
      match s.tasks[i]? with
      | some ⟨l, .loaded current, n⟩ =>
          -- the test is on the value that was loaded
          some (s.setTask i ⟨l, .closed, if current > 0 then n + 1 else n⟩
            (s.metrics.recordActiveConnectionClosed current))
      | _ => none
  | .finish i =>
      match s.tasks[i]? with
      | some ⟨l, .closed, n⟩ => some (s.setTask i ⟨l, .ended, n⟩ s.metrics)
      | _ => none
  | .elsewhere m =>
      -- the rest of the process moves every counter but these two
      some { s with metrics := { m with
        acceptedConnections := s.metrics.acceptedConnections
        activeConnections := s.metrics.activeConnections } }

/-- The closes that have been completed. -/
def completedCloses (s : ConnectionTasks) : Nat := (s.tasks.map ConnectionTask.closes).sum

/-- Every step, by what it does to the gauge and to the task it moves. -/
inductive Effect (s : ConnectionTasks) : ConnectionTaskEvent → ConnectionTasks → Prop
  | accepted (l : Listener) (free : s.permits l < maxConcurrentConnections) :
      Effect s (.accept l)
        ⟨s.tasks ++ [⟨l, .handshake, 0⟩], s.metrics.recordAcceptedConnection⟩
  | worked {e : ConnectionTaskEvent} (i : Nat) (t : ConnectionTask) (phase : TaskPhase)
      (m : Metrics) (at_task : s.tasks[i]? = some t) (before : t.phase.working = true)
      (after : phase.working = true ∨ phase = .closing)
      (accepted : m.acceptedConnections = s.metrics.acceptedConnections)
      (active : m.activeConnections = s.metrics.activeConnections) :
      Effect s e (s.setTask i { t with phase } m)
  | loaded (i : Nat) (l : Listener) (n : Nat)
      (at_task : s.tasks[i]? = some ⟨l, .closing, n⟩) :
      Effect s (.load i) (s.setTask i ⟨l, .loaded s.metrics.activeConnections, n⟩ s.metrics)
  | subtracted (i : Nat) (l : Listener) (current : UInt64) (n : Nat)
      (at_task : s.tasks[i]? = some ⟨l, .loaded current, n⟩) :
      Effect s (.subtract i) (s.setTask i ⟨l, .closed, if current > 0 then n + 1 else n⟩
        (s.metrics.recordActiveConnectionClosed current))
  | finished (i : Nat) (l : Listener) (n : Nat)
      (at_task : s.tasks[i]? = some ⟨l, .closed, n⟩) :
      Effect s (.finish i) (s.setTask i ⟨l, .ended, n⟩ s.metrics)
  | elsewhere (m : Metrics) :
      Effect s (.elsewhere m) { s with metrics := { m with
        acceptedConnections := s.metrics.acceptedConnections
        activeConnections := s.metrics.activeConnections } }

section
variable {toBytes : ToBytes} {fromBytes : FromBytes} {s s' : ConnectionTasks}

theorem effect_of_step {e : ConnectionTaskEvent} (hs : s.step toBytes fromBytes e = some s') :
    s.Effect e s' := by
  cases e with
  | accept l =>
      simp only [step] at hs
      split at hs
      · rename_i hfree
        cases hs
        exact .accepted l hfree
      · cases hs
  | handshake i outcome =>
      simp only [step] at hs
      split at hs
      · rename_i l n hi
        split at hs <;> cases hs
        · exact .worked i _ .reading _ hi rfl (.inl rfl) rfl rfl
        · exact .worked i _ .serving _ hi rfl (.inl rfl) rfl rfl
        · exact .worked i _ .closing _ hi rfl (.inr rfl) rfl rfl
        · exact .worked i _ .closing _ hi rfl (.inr rfl) rfl rfl
      · cases hs
  | read i io =>
      simp only [step] at hs
      split at hs
      · rename_i l n hi
        split at hs <;> cases hs
        · exact .worked i _ (.resolving _) _ hi rfl (.inl rfl) rfl rfl
        · exact .worked i _ .closing _ hi rfl (.inr rfl) rfl rfl
        · exact .worked i _ .closing _ hi rfl (.inr rfl) rfl rfl
      · cases hs
  | resolved i response =>
      simp only [step] at hs
      split at hs
      · rename_i l query n hi
        cases hs
        exact .worked i _ (.writing response) _ hi rfl (.inl rfl) rfl rfl
      · cases hs
  | write i io =>
      simp only [step] at hs
      split at hs
      · rename_i l response n hi
        split at hs <;> cases hs
        · exact .worked i _ .reading _ hi rfl (.inl rfl) rfl rfl
        · exact .worked i _ .closing _ hi rfl (.inr rfl) rfl rfl
      · cases hs
  | served i outcome =>
      simp only [step] at hs
      split at hs
      · rename_i l n hi
        cases hs
        exact .worked i _ .closing _ hi rfl (.inr rfl) rfl rfl
      · cases hs
  | load i =>
      simp only [step] at hs
      split at hs
      · rename_i l n hi
        cases hs
        exact .loaded i l n hi
      · cases hs
  | subtract i =>
      simp only [step] at hs
      split at hs
      · rename_i l current n hi
        cases hs
        exact .subtracted i l current n hi
      · cases hs
  | finish i =>
      simp only [step] at hs
      split at hs
      · rename_i l n hi
        cases hs
        exact .finished i l n hi
      · cases hs
  | elsewhere m =>
      cases hs
      exact .elsewhere m

/-! ## The invariant -/

/-- The tasks that the gauge counts. -/
def unclosed (s : ConnectionTasks) : Nat := s.tasks.countP fun t => !t.phase.hasClosed

/-- What a task has done to the gauge fits where it stands, and its guard
will hold. -/
structure TaskOk (t : ConnectionTask) : Prop where
  closes : t.closes = if t.phase.hasClosed then 1 else 0
  guard : ∀ current, t.phase = .loaded current → 0 < current

/-- Gauge, counter and permits as the tasks stand. -/
structure Inv (persisted : PersistedMetrics) (s : ConnectionTasks) : Prop where
  gauge : s.metrics.activeConnections.toNat = s.unclosed
  counter : s.metrics.acceptedConnections =
    persisted.acceptedConnections + UInt64.ofNat s.tasks.length
  tasks : ∀ t ∈ s.tasks, TaskOk t
  permits : ∀ l, s.permits l ≤ maxConcurrentConnections

/-- A task that the gauge counts holds a permit. -/
theorem unclosed_le_permits (s : ConnectionTasks) :
    s.unclosed ≤ s.permits .dot + s.permits .doh := by
  obtain ⟨tasks, metrics⟩ := s
  simp only [unclosed, permits]
  induction tasks with
  | nil => simp
  | cons t tasks ih =>
      simp only [List.countP_cons]
      cases hc : t.phase.hasClosed with
      | true => simp; omega
      | false => cases hl : t.listener <;> simp [t.phase.holdsPermit_of_not_hasClosed hc] <;> omega

theorem Inv.unclosed_lt {persisted : PersistedMetrics} (h : Inv persisted s) :
    s.unclosed + 1 < 2 ^ 64 := by
  have hle := s.unclosed_le_permits
  have hdot := h.permits .dot
  have hdoh := h.permits .doh
  simp only [maxConcurrentConnections] at hdot hdoh
  omega

theorem Inv.gauge_pos {persisted : PersistedMetrics} (h : Inv persisted s) {i : Nat}
    {t : ConnectionTask} (hi : s.tasks[i]? = some t) (ht : t.phase.hasClosed = false) :
    0 < s.metrics.activeConnections := by
  have hpos : 0 < s.unclosed :=
    List.countP_pos_iff.mpr ⟨t, List.mem_of_getElem? hi, by rw [ht]; rfl⟩
  rw [UInt64.lt_iff_toNat_lt, h.gauge]
  exact hpos

/-- A task moves: it stays with its server, takes no new permit, and the
gauge moves with it. -/
theorem Inv.setTask {persisted : PersistedMetrics} (h : Inv persisted s) {i : Nat}
    {t t' : ConnectionTask} {m : Metrics} (hi : s.tasks[i]? = some t) (hok : TaskOk t')
    (hl : t'.listener = t.listener)
    (hpermit : t'.phase.holdsPermit = true → t.phase.holdsPermit = true)
    (hcounter : m.acceptedConnections = s.metrics.acceptedConnections)
    (hgauge : m.activeConnections.toNat + (if t.phase.hasClosed then 0 else 1) =
      s.metrics.activeConnections.toNat + if t'.phase.hasClosed then 0 else 1) :
    Inv persisted (s.setTask i t' m) where
  gauge := by
    have hcount := countP_set_add (fun t : ConnectionTask => !t.phase.hasClosed) hi t'
    have hg := h.gauge
    simp only [unclosed, ConnectionTasks.setTask, Bool.not_eq_true'] at hcount hg ⊢
    cases hc : t.phase.hasClosed <;> cases hc' : t'.phase.hasClosed <;>
      simp [hc, hc'] at hcount hgauge <;> omega
  counter := by
    show m.acceptedConnections = _ + UInt64.ofNat (s.tasks.set i t').length
    rw [hcounter, List.length_set]
    exact h.counter
  tasks := by
    intro x hx
    rcases List.mem_or_eq_of_mem_set hx with hx | rfl
    · exact h.tasks x hx
    · exact hok
  permits := by
    intro l
    have hcount := countP_set_add
      (fun t : ConnectionTask => t.listener == l && t.phase.holdsPermit) hi t'
    have hle := h.permits l
    simp only [ConnectionTasks.permits, ConnectionTasks.setTask, hl, Bool.and_eq_true]
      at hcount hle ⊢
    by_cases hp' : t.listener == l ∧ t'.phase.holdsPermit = true
    · have hp := And.intro hp'.1 (hpermit hp'.2)
      rw [if_pos hp', if_pos hp] at hcount
      omega
    · rw [if_neg hp'] at hcount
      omega

theorem inv_init (persisted : PersistedMetrics) : Inv persisted (init persisted) where
  gauge := rfl
  counter := (UInt64.add_zero _).symm
  tasks := by
    intro t ht
    cases ht
  permits := fun _ => Nat.zero_le _

theorem Inv.accepted {persisted : PersistedMetrics} (h : Inv persisted s) {l : Listener}
    (hfree : s.permits l < maxConcurrentConnections) :
    Inv persisted ⟨s.tasks ++ [⟨l, .handshake, 0⟩], s.metrics.recordAcceptedConnection⟩ where
  gauge := by
    have hup := (Metrics.gauge_add_one_iff h.gauge).mpr h.unclosed_lt
    simp only [unclosed, List.countP_append]
    exact hup
  counter := by
    show s.metrics.acceptedConnections + 1 = _
    rw [h.counter, List.length_append, UInt64.ofNat_add, UInt64.add_assoc]
    rfl
  tasks := by
    intro t ht
    rcases List.mem_append.mp ht with ht | ht
    · exact h.tasks t ht
    · rw [List.mem_singleton.mp ht]
      exact ⟨rfl, by intro current hc; cases hc⟩
  permits := by
    intro l'
    have hle := h.permits l'
    simp only [ConnectionTasks.permits, List.countP_append] at hle hfree ⊢
    have hholds : TaskPhase.handshake.holdsPermit = true := rfl
    by_cases hl : l' = l
    · subst hl
      simp [hholds]
      omega
    · simp [hholds, Ne.symm hl]
      omega

/-- Work does not touch the gauge. -/
theorem TaskOk.worked {t : ConnectionTask} (h : TaskOk t) (hbefore : t.phase.working = true)
    {phase : TaskPhase} (hafter : phase.working = true ∨ phase = .closing) :
    TaskOk { t with phase } ∧ t.phase.hasClosed = false ∧ phase.hasClosed = false ∧
      t.phase.holdsPermit = true := by
  have hwork : ∀ p : TaskPhase, p.working = true → p.hasClosed = false := by
    intro p hp
    cases p <;> first | rfl | cases hp
  have hb := hwork _ hbefore
  have ha : phase.hasClosed = false := by
    rcases hafter with ha | rfl
    · exact hwork _ ha
    · rfl
  have hcloses := h.closes
  rw [hb] at hcloses
  refine ⟨⟨?_, ?_⟩, hb, ha, t.phase.holdsPermit_of_not_hasClosed hb⟩
  · simpa [ha] using hcloses
  · intro current hc
    have hc : phase = .loaded current := hc
    subst hc
    simp [TaskPhase.working] at hafter

/-- The subtraction of a task that is still counted takes one off. -/
theorem Inv.gauge_subtracted {persisted : PersistedMetrics} (h : Inv persisted s) {i : Nat}
    {l : Listener} {current : UInt64} {n : Nat}
    (hi : s.tasks[i]? = some ⟨l, .loaded current, n⟩) :
    (s.metrics.recordActiveConnectionClosed current).activeConnections.toNat + 1 =
      s.metrics.activeConnections.toNat := by
  have hguard := (h.tasks _ (List.mem_of_getElem? hi)).guard current rfl
  have hpos := h.gauge_pos hi rfl
  rw [UInt64.lt_iff_toNat_lt] at hpos
  rw [Metrics.recordActiveConnectionClosed, if_pos hguard]
  have hsub := Metrics.gauge_sub_one (g := s.metrics.activeConnections)
    (n := s.metrics.activeConnections.toNat - 1) (Nat.sub_add_cancel hpos).symm
  rw [hsub]
  exact Nat.sub_add_cancel hpos

theorem Inv.subtract {persisted : PersistedMetrics} (h : Inv persisted s) {i : Nat}
    (hs : s.step toBytes fromBytes (.subtract i) = some s') :
    s'.metrics.activeConnections.toNat + 1 = s.metrics.activeConnections.toNat := by
  simp only [ConnectionTasks.step] at hs
  split at hs
  · rename_i l current n hi
    cases hs
    exact h.gauge_subtracted hi
  · cases hs

theorem Inv.step {persisted : PersistedMetrics} (h : Inv persisted s) {e : ConnectionTaskEvent}
    (hs : s.step toBytes fromBytes e = some s') : Inv persisted s' := by
  cases effect_of_step hs with
  | accepted l hfree => exact h.accepted hfree
  | worked i t phase m hi hbefore hafter haccepted hactive =>
      obtain ⟨hok, hb, ha, hp⟩ := (h.tasks t (List.mem_of_getElem? hi)).worked hbefore hafter
      exact h.setTask hi hok rfl (fun _ => hp) haccepted (by rw [hactive, hb, ha])
  | loaded i l n hi =>
      have hcloses := (h.tasks _ (List.mem_of_getElem? hi)).closes
      have hpos := h.gauge_pos hi rfl
      refine h.setTask hi ⟨hcloses, ?_⟩ rfl (fun _ => rfl) rfl rfl
      intro current hc
      cases hc
      exact hpos
  | subtracted i l current n hi =>
      have hok := h.tasks _ (List.mem_of_getElem? hi)
      have hn : n = 0 := hok.closes
      have hguard := hok.guard current rfl
      refine h.setTask hi ⟨?_, ?_⟩ rfl (fun _ => rfl) ?_ (h.gauge_subtracted hi)
      · rw [if_pos hguard, hn]
        rfl
      · intro c hc
        cases hc
      · rw [Metrics.recordActiveConnectionClosed, if_pos hguard]
  | finished i l n hi =>
      have hn : n = 1 := (h.tasks _ (List.mem_of_getElem? hi)).closes
      refine h.setTask hi ⟨hn, ?_⟩ rfl (fun hp => ?_) rfl rfl
      · intro c hc
        cases hc
      · cases hp
  | elsewhere m => exact ⟨h.gauge, h.counter, h.tasks, h.permits⟩

/-! ## The accounting -/

theorem Inv.completedCloses {persisted : PersistedMetrics} (h : Inv persisted s) :
    s.unclosed + s.completedCloses = s.tasks.length := by
  obtain ⟨tasks, metrics⟩ := s
  have hok : ∀ t ∈ tasks, TaskOk t := h.tasks
  clear h
  show tasks.countP _ + (tasks.map ConnectionTask.closes).sum = tasks.length
  induction tasks with
  | nil => rfl
  | cons t tasks ih =>
      have hrest := ih fun t ht => hok t (List.mem_cons_of_mem _ ht)
      have ht := (hok t List.mem_cons_self).closes
      simp only [List.countP_cons, List.map_cons, List.sum_cons, List.length_cons]
      cases hc : t.phase.hasClosed <;> simp [hc] at ht ⊢ <;> omega

end

/-- What the accounting promises of a state: the gauge is what was accepted
less what was closed, a task has closed once or not yet, and a task that
stands before its subtraction will subtract from a positive gauge. -/
structure Exact (persisted : PersistedMetrics) (s : ConnectionTasks) : Prop where
  gauge : s.metrics.activeConnections.toNat + s.completedCloses = s.tasks.length
  counter : s.metrics.acceptedConnections =
    persisted.acceptedConnections + UInt64.ofNat s.tasks.length
  once : ∀ t ∈ s.tasks, t.closes = if t.phase.hasClosed then 1 else 0
  guard : ∀ t ∈ s.tasks, ∀ current, t.phase = .loaded current →
    0 < current ∧ 0 < s.metrics.activeConnections

/-- The exit paths: the task whose work the step ends. -/
def exits (toBytes : ToBytes) (fromBytes : FromBytes) (s : ConnectionTasks) :
    ConnectionTaskEvent → Option Nat
  | .handshake _ (some (.ok ())) => none
  | .handshake i (some (.error _)) => some i
  | .handshake i none => some i
  | .read i io =>
      match readMessage fromBytes io with
      | .ok (some _) => none
      | .ok none | .error _ => some i
  | .write i io =>
      match s.tasks[i]? with
      | some ⟨_, .writing response, _⟩ =>
          match writeMessage toBytes io response with
          | .ok () => none
          | .error _ => some i
      | _ => none
  | .served i _ => some i
  | _ => none

section
variable {toBytes : ToBytes} {fromBytes : FromBytes} {s s' : ConnectionTasks}

theorem Inv.exact {persisted : PersistedMetrics} (h : Inv persisted s) : s.Exact persisted where
  gauge := by
    rw [h.gauge]
    exact h.completedCloses
  counter := h.counter
  once := fun t ht => (h.tasks t ht).closes
  guard := by
    intro t ht current hc
    obtain ⟨i, hi⟩ := List.getElem?_of_mem ht
    exact ⟨(h.tasks t ht).guard current hc, h.gauge_pos hi (by rw [hc]; rfl)⟩

/-- On every exit path the task comes to its close. -/
theorem closing_of_exits {e : ConnectionTaskEvent} {i : Nat}
    (hs : s.step toBytes fromBytes e = some s') (he : s.exits toBytes fromBytes e = some i) :
    ∃ t, s'.tasks[i]? = some t ∧ t.phase = .closing := by
  cases e with
  | handshake j outcome =>
      simp only [step] at hs
      split at hs
      · rename_i l n hi
        match outcome, l with
        | some (.ok ()), _ => cases he
        | some (.error _), _ =>
            cases he
            cases hs
            exact ⟨_, getElem?_set_of_some hi _, rfl⟩
        | none, _ =>
            cases he
            cases hs
            exact ⟨_, getElem?_set_of_some hi _, rfl⟩
      · cases hs
  | read j io =>
      simp only [step] at hs
      simp only [exits] at he
      split at hs
      · rename_i l n hi
        split at hs
        · rename_i query hread
          rw [hread] at he
          cases he
        · rename_i hread
          rw [hread] at he
          cases he
          cases hs
          exact ⟨_, getElem?_set_of_some hi _, rfl⟩
        · rename_i err hread
          rw [hread] at he
          cases he
          cases hs
          exact ⟨_, getElem?_set_of_some hi _, rfl⟩
      · cases hs
  | write j io =>
      simp only [step] at hs
      simp only [exits] at he
      split at hs
      · rename_i l response n hi
        rw [hi] at he
        split at hs
        · rename_i hwrite
          simp only [hwrite] at he
          cases he
        · rename_i err hwrite
          simp only [hwrite] at he
          cases he
          cases hs
          exact ⟨_, getElem?_set_of_some hi _, rfl⟩
      · cases hs
  | served j outcome =>
      simp only [step] at hs
      split at hs
      · rename_i l n hi
        cases he
        cases hs
        exact ⟨_, getElem?_set_of_some hi _, rfl⟩
      · cases hs
  | _ => cases he

/-- There is no other way out of the work. -/
theorem working_or_closing {e : ConnectionTaskEvent} {i : Nat} {t t' : ConnectionTask}
    (hs : s.step toBytes fromBytes e = some s') (hi : s.tasks[i]? = some t)
    (ht : t.phase.working = true) (hi' : s'.tasks[i]? = some t') :
    t'.phase.working = true ∨ t'.phase = .closing := by
  have hkeep : ∀ j t'' u m, s.tasks[j]? = some u → (u.phase.working = true →
      t''.phase.working = true ∨ t''.phase = .closing) → (s.setTask j t'' m).tasks[i]? = some t' →
      t'.phase.working = true ∨ t'.phase = .closing := by
    intro j t'' u m hj hu hset
    rcases getElem?_set_eq_some.mp hset with ⟨_, hold⟩ | ⟨rfl, _, rfl⟩
    · rw [hi] at hold
      cases hold
      exact .inl ht
    · rw [hi] at hj
      cases hj
      exact hu ht
  cases effect_of_step hs with
  | accepted l hfree =>
      rcases getElem?_concat_eq_some.mp hi' with hold | ⟨_, rfl⟩
      · rw [hi] at hold
        cases hold
        exact .inl ht
      · exact .inl rfl
  | worked j u phase m hj hbefore hafter haccepted hactive =>
      exact hkeep j _ u m hj (fun _ => hafter) hi'
  | loaded j l n hj => exact hkeep j _ _ _ hj (by intro hw; cases hw) hi'
  | subtracted j l current n hj => exact hkeep j _ _ _ hj (by intro hw; cases hw) hi'
  | finished j l n hj => exact hkeep j _ _ _ hj (by intro hw; cases hw) hi'
  | elsewhere m =>
      have hold : s.tasks[i]? = some t' := hi'
      rw [hi] at hold
      cases hold
      exact .inl ht

/-- A task at its close goes through with it, and ends having closed once. -/
theorem Inv.closable {persisted : PersistedMetrics} (h : Inv persisted s) {i : Nat}
    {t : ConnectionTask} (hi : s.tasks[i]? = some t) (hc : t.phase = .closing) :
    ∃ s', run (ConnectionTasks.step toBytes fromBytes) s [.load i, .subtract i, .finish i] =
        some s' ∧ s'.tasks[i]? = some ⟨t.listener, .ended, 1⟩ ∧
      s'.metrics.activeConnections.toNat + 1 = s.metrics.activeConnections.toNat := by
  obtain ⟨l, phase, n⟩ := t
  have hc : phase = .closing := hc
  subst hc
  let s₁ := s.setTask i ⟨l, .loaded s.metrics.activeConnections, n⟩ s.metrics
  have hs₁ : s.step toBytes fromBytes (.load i) = some s₁ := by
    simp only [ConnectionTasks.step, hi]
    rfl
  have hi₁ : s₁.tasks[i]? = some ⟨l, .loaded s.metrics.activeConnections, n⟩ :=
    getElem?_set_of_some hi _
  let current := s.metrics.activeConnections
  let s₂ := s₁.setTask i ⟨l, .closed, if current > 0 then n + 1 else n⟩
    (s₁.metrics.recordActiveConnectionClosed current)
  have hs₂ : s₁.step toBytes fromBytes (.subtract i) = some s₂ := by
    simp only [ConnectionTasks.step, hi₁]
    rfl
  have hi₂ : s₂.tasks[i]? = some ⟨l, .closed, if current > 0 then n + 1 else n⟩ :=
    getElem?_set_of_some hi₁ _
  have hinv₁ := h.step hs₁
  have hinv₂ := hinv₁.step hs₂
  let s₃ := s₂.setTask i ⟨l, .ended, if current > 0 then n + 1 else n⟩ s₂.metrics
  have hs₃ : s₂.step toBytes fromBytes (.finish i) = some s₃ := by
    simp only [ConnectionTasks.step, hi₂]
    rfl
  have hone : (if current > 0 then n + 1 else n) = 1 :=
    (hinv₂.tasks _ (List.mem_of_getElem? hi₂)).closes
  refine ⟨s₃, ?_, ?_, ?_⟩
  · simp only [run_cons, hs₁, hs₂, hs₃, Option.bind_some, run_nil]
  · rw [← hone]
    exact getElem?_set_of_some hi₂ _
  · have hsub := hinv₁.subtract hs₂
    exact hsub

end

end ConnectionTasks

/-- **The gauge of active connections.** In every run of the accept loops
and of their connection tasks, from any saved counters: in every state the
gauge is the number of connections accepted less the number of closes
completed, no task has closed twice and every task that ended has closed,
and no guard will suppress a close. On every exit path a task comes to its
close, there is no other way out, and the close takes exactly one off. -/
theorem active_connections_exact (toBytes : ToBytes) (fromBytes : FromBytes)
    (persisted : PersistedMetrics) (es : List ConnectionTaskEvent) :
    (∀ s, Passes (ConnectionTasks.step toBytes fromBytes) (.init persisted) es s →
      s.Exact persisted ∧
      ∀ i t, s.tasks[i]? = some t → t.phase = .closing →
        ∃ s', run (ConnectionTasks.step toBytes fromBytes) s [.load i, .subtract i, .finish i] =
            some s' ∧ s'.tasks[i]? = some ⟨t.listener, .ended, 1⟩ ∧
          s'.metrics.activeConnections.toNat + 1 = s.metrics.activeConnections.toNat) ∧
    ∀ s e s', Takes (ConnectionTasks.step toBytes fromBytes) (.init persisted) es s e s' →
      (∀ i, s.exits toBytes fromBytes e = some i →
        ∃ t, s'.tasks[i]? = some t ∧ t.phase = .closing ∧ t.closes = 0) ∧
      (∀ (i : Nat) (t t' : ConnectionTask), s.tasks[i]? = some t → t.phase.working = true →
        s'.tasks[i]? = some t' → t'.phase.working = true ∨ t'.phase = .closing) ∧
      ∀ i, e = .subtract i →
        s'.metrics.activeConnections.toNat + 1 = s.metrics.activeConnections.toNat := by
  -- carried: the gauge is the number of tasks that have not taken themselves out of it
  have hinv : ∀ s, Passes (ConnectionTasks.step toBytes fromBytes) (.init persisted) es s →
      ConnectionTasks.Inv persisted s := by
    intro s hpass
    exact hpass.invariant_of_step (ConnectionTasks.inv_init persisted)
      fun s e s' hi hs => hi.step hs
  constructor
  · intro s hpass
    refine ⟨(hinv s hpass).exact, ?_⟩
    intro i t hi hc
    exact (hinv s hpass).closable hi hc
  · intro s e s' ht
    refine ⟨?_, ?_, ?_⟩
    · intro i he
      obtain ⟨t, hi, hc⟩ := ConnectionTasks.closing_of_exits ht.step_eq he
      have hcloses := ((hinv s' ht.target).tasks t (List.mem_of_getElem? hi)).closes
      rw [hc] at hcloses
      exact ⟨t, hi, hc, hcloses⟩
    · intro i t t' hi hw hi'
      exact ConnectionTasks.working_or_closing ht.step_eq hi hw hi'
    · intro i he
      subst he
      exact (hinv s ht.source).subtract ht.step_eq

/-- A DoT connection whose handshake times out and a DoH connection that
ends normally: both have loaded the gauge before either subtracts. -/
theorem active_connections_exact_race :
    let toBytes : ToBytes := fun _ => .ok []
    let fromBytes : FromBytes := fun _ => .error []
    let es : List ConnectionTaskEvent :=
      [.accept .dot, .accept .doh, .handshake 1 (some (.ok ())), .handshake 0 none,
       .served 1 (.ok ()), .load 0, .load 1, .subtract 1, .finish 1, .subtract 0, .finish 0]
    ∃ s, Passes (ConnectionTasks.step toBytes fromBytes) (.init {}) es s ∧
      s.metrics.activeConnections.toNat + s.completedCloses = s.tasks.length ∧
      s.completedCloses = 2 := by
  intro toBytes fromBytes es
  have hpass : Passes (ConnectionTasks.step toBytes fromBytes) (.init {}) es _ := .finish rfl
  have hexact := ((active_connections_exact toBytes fromBytes {} es).1 _ hpass).1
  exact ⟨_, hpass, hexact.gauge, by decide +kernel⟩

end Dotdns
