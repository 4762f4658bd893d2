import ToolPipeline.Proofs.Server.SoundConnection
import ToolPipeline.Proofs.Server.Transports

/-! The slots of a connection. A task takes a slot once and gives it back at most once, and no more
frames than there are slots have a tool executing, though an aborted task gives its slot back while
its worker may still be inside a tool. -/

namespace ToolPipeline

/-- The task has had its slot, if it ever has one. -/
def FrameTask.isSpent (t : FrameTask) : Bool :=
  match t.stage with
  | .queued | .holding => false
  | _ => true

namespace Connection

def holds (c : Connection) (i : Nat) : Bool := (c.tasks[i]?).any FrameTask.holdsSlot

def spent (c : Connection) (i : Nat) : Bool := (c.tasks[i]?).any FrameTask.isSpent

/-- What a step does to the slots: nothing, or one task takes a free slot, or one task gives its
slot back for good. -/
inductive SlotMove (c d : Connection) : Prop where
  | kept : d.free = c.free → (∀ i, d.holds i = c.holds i) → SlotMove c d
  | taken (i : Nat) : c.free = d.free + 1 → c.holds i = false → c.spent i = false →
    d.holds i = true → (∀ k, k ≠ i → d.holds k = c.holds k) → SlotMove c d
  | returned (i : Nat) : d.free = c.free + 1 → c.holds i = true → d.holds i = false →
    d.spent i = true → (∀ k, k ≠ i → d.holds k = c.holds k) → SlotMove c d

/-- What actions make of a connection, while time passes and tokens are cancelled in between. -/
inductive Later (server : Server) (c : Connection) (w : World) : Connection → World → Prop where
  | refl : Later server c w c w
  | act {d d' : Connection} {v v' : World} (offered : Nat) (a : ConnectionAction) :
    Later server c w d v → d.step? server offered v a = some (d', v') → Later server c w d' v'
  | elapse {d : Connection} {v v' : World} :
    Later server c w d v → v.Before v' → Later server c w d v'

end Connection

section
variable {server : Server} {offered : Nat} {v w : World} {c d : Connection} {t u : FrameTask}
  {i free : Nat} {queue : List Outbound} {token : Token} {slots : Nat}

theorem FrameTask.not_holdsSlot_of_isSpent (h : t.isSpent = true) : t.holdsSlot = false := by
  unfold isSpent at h
  unfold holdsSlot
  cases hs : t.stage <;> simp_all

theorem FrameTask.Move.slot (h : t.Move server offered w c u v free queue) :
    free = c.free ∧ u.holdsSlot = t.holdsSlot ∨
    c.free = free + 1 ∧ t.stage = .queued ∧ u.holdsSlot = true ∨
    free = c.free + 1 ∧ t.holdsSlot = true ∧ u.isSpent = true := by
  cases h with
  | acquired hs hf => exact .inr (.inl ⟨hf, hs, rfl⟩)
  | gaveUp hs => exact .inl ⟨rfl, by simp [holdsSlot, hs]⟩
  | worked => exact .inl ⟨rfl, rfl⟩
  | released hs => exact .inr (.inr ⟨rfl, by simp [holdsSlot, hs], rfl⟩)
  | replyQueued hs | replyDropped hs => exact .inl ⟨rfl, by simp [holdsSlot, hs]⟩
  | aborted =>
    cases hs : t.holdsSlot with
    | false => exact .inl ⟨rfl, rfl⟩
    | true => exact .inr (.inr ⟨rfl, rfl, rfl⟩)

theorem FrameTask.Move.isSpent (h : t.Move server offered w c u v free queue)
    (ht : t.isSpent = true) : u.isSpent = true := by
  cases h with
  | acquired hs => simp [FrameTask.isSpent, hs] at ht
  | worked => exact ht
  | gaveUp | released | replyQueued | replyDropped | aborted => rfl

namespace Connection

theorem any_getElem?_set (p : FrameTask → Bool) (ht : c.tasks[i]? = some t) (u : FrameTask)
    (k : Nat) : ((c.tasks.set i u)[k]?).any p = if k = i then p u else (c.tasks[k]?).any p := by
  rw [getElem?_set_of_some ht]
  split <;> rfl

theorem any_getElem?_concat {p : FrameTask → Bool} (hu : p u = false) (k : Nat) :
    ((c.tasks ++ [u])[k]?).any p = (c.tasks[k]?).any p := by
  rw [getElem?_concat]
  split
  · next hk => simp [hk, hu]
  · rfl

theorem holds_of_getElem? (ht : c.tasks[i]? = some t) : c.holds i = t.holdsSlot := by
  simp [holds, ht]

theorem spent_of_getElem? (ht : c.tasks[i]? = some t) : c.spent i = t.isSpent := by
  simp [spent, ht]

theorem not_holds_of_spent (h : c.spent i = true) : c.holds i = false := by
  cases ht : c.tasks[i]? with
  | none => simp [holds, ht]
  | some t =>
    rw [holds_of_getElem? ht]
    exact FrameTask.not_holdsSlot_of_isSpent (spent_of_getElem? ht ▸ h)

theorem Move.slotMove {a : ConnectionAction} (h : c.Move server offered w a d v) :
    c.SlotMove d := by
  cases h with
  | ignored | closed | refused | refusalQueued | refusalDropped | written | readerStopped
  | writerStopped => exact .kept rfl fun _ => rfl
  | accepted => exact .kept rfl fun k => any_getElem?_concat rfl k
  | @task a i free t u v queue ha ht hm =>
    have hset := any_getElem?_set FrameTask.holdsSlot ht u
    have hother (k : Nat) (hk : k ≠ i) :
        ((c.tasks.set i u)[k]?).any FrameTask.holdsSlot = c.holds k := by
      rw [hset k, if_neg hk, holds]
    have hself : ((c.tasks.set i u)[i]?).any FrameTask.holdsSlot = u.holdsSlot := by
      rw [hset i, if_pos rfl]
    have hold := holds_of_getElem? ht
    rcases hm.slot with ⟨hf, hu⟩ | ⟨hf, hq, hu⟩ | ⟨hf, hh, hu⟩
    · refine .kept hf fun k => ?_
      by_cases hk : k = i
      · subst hk
        exact hself.trans (hu.trans hold.symm)
      · exact hother k hk
    · have hn : c.spent i = false := by simp [spent_of_getElem? ht, FrameTask.isSpent, hq]
      have hold' : c.holds i = false := by simp [hold, FrameTask.holdsSlot, hq]
      exact .taken i hf hold' hn (hself.trans hu) hother
    · have hspent : ((c.tasks.set i u)[i]?).any FrameTask.isSpent = true := by
        rw [any_getElem?_set _ ht, if_pos rfl, hu]
      have hfree := FrameTask.not_holdsSlot_of_isSpent hu
      exact .returned i hf (hold.trans hh) (hself.trans hfree) hspent hother

theorem Move.spent {a : ConnectionAction} (h : c.Move server offered w a d v)
    (hi : c.spent i = true) : d.spent i = true := by
  cases h with
  | ignored | closed | refused | refusalQueued | refusalDropped | written | readerStopped
  | writerStopped => exact hi
  | accepted => exact (any_getElem?_concat rfl i).trans hi
  | @task a k free t u v queue ha ht hm =>
    have hset : ((c.tasks.set k u)[i]?).any FrameTask.isSpent = if i = k then _ else c.spent i :=
      any_getElem?_set FrameTask.isSpent ht u i
    refine hset.trans ?_
    split
    · next hk =>
      subst hk
      exact hm.isSpent (spent_of_getElem? ht ▸ hi)
    · exact hi

theorem Move.free_add_held {a : ConnectionAction} (h : c.Move server offered w a d v) :
    d.free + d.held = c.free + c.held := by
  cases h with
  | ignored | closed | refused | refusalQueued | refusalDropped | written | readerStopped
  | writerStopped => rfl
  | accepted => simp [held, taskOf, FrameTask.holdsSlot]
  | @task a i free t u v queue ha ht hm =>
    have hcount := countP_set FrameTask.holdsSlot ht u
    simp only [held]
    rcases hm.slot with ⟨hf, hu⟩ | ⟨hf, hq, hu⟩ | ⟨hf, hh, hu⟩
    · rw [hu] at hcount
      omega
    · have hq' : t.holdsSlot = false := by simp [FrameTask.holdsSlot, hq]
      simp only [hq', hu, Bool.toNat_false, Bool.toNat_true] at hcount
      omega
    · have hu' := FrameTask.not_holdsSlot_of_isSpent hu
      simp only [hh, hu', Bool.toNat_false, Bool.toNat_true] at hcount
      omega

theorem Later.spent (h : Later server c w d v) (hi : c.spent i = true) : d.spent i = true := by
  induction h with
  | refl => exact hi
  | act offered a _ hs ih => exact (move_of_step hs).spent ih
  | elapse _ _ ih => exact ih

end Connection

namespace Connection

theorem SlotMove.spent (h : c.SlotMove d) (hi : c.holds i = true) (hd : d.holds i = false) :
    d.free = c.free + 1 ∧ d.spent i = true := by
  cases h with
  | kept _ hk => simp [hk i, hi] at hd
  | taken k _ _ _ hdk hk =>
    by_cases hik : i = k
    · simp [hik, hdk] at hd
    · simp [hk i hik, hi] at hd
  | returned k hf _ _ hsk hk =>
    by_cases hik : i = k
    · exact ⟨hf, hik ▸ hsk⟩
    · simp [hk i hik, hi] at hd

/-- The run of a task that holds a slot goes on, or the slot can be given back. -/
theorem Sound.work_or_release (h : c.Sound server w) (offered : Nat) (ht : c.tasks[i]? = some t)
    (hi : c.holds i = true) : ∃ p, t.worker = some p ∧
      ((∃ q v, p.step? server.engine t.job offered w = some (q, v) ∧
          c.step? server offered w (.work i) = some (c.setTask i { t with worker := some q }, v)) ∨
        ∃ ended d, p = .over ended ∧
          c.step? server offered w (.release i) = some (d, w) ∧ d.free = c.free + 1 ∧
          d.holds i = false) := by
  have hstage : t.stage = .holding := by
    rw [holds_of_getElem? ht, FrameTask.holdsSlot] at hi
    cases hs : t.stage <;> simp_all
  obtain ⟨p, hp⟩ := (h.tasks i t ht).holding hstage
  refine ⟨p, hp, ?_⟩
  rcases Progress.over_or_step server.engine t.job offered w p with ⟨ended, rfl⟩ | ⟨q, v, hq⟩
  · have hgone : ((c.tasks.set i { t with stage := .replying (t.frame.reply ended.outcome) })[i]?
        ).any FrameTask.holdsSlot = false := by
      rw [any_getElem?_set _ ht, if_pos rfl]
      rfl
    exact .inr ⟨ended, _, rfl, step_release ht hstage hp, rfl, hgone⟩
  · exact .inl ⟨q, v, hq, step_work ht hp hq⟩

end Connection

theorem FrameTask.Move.isInside (h : t.Move server offered w c u v free queue)
    (hi : t.job.options.interruption w = some .signal) (hu : u.isInside = true) :
    t.isInside = true := by
  cases h with
  | acquired => cases hu
  | worked hp hs =>
    rcases Progress.invocations_of_step hs with ⟨-, hq⟩ | ⟨hn, -⟩
    · simp [FrameTask.isInside, hq] at hu
    · simp [hi] at hn
  | gaveUp | released | replyQueued | replyDropped | aborted => exact hu

namespace Connection

/-- While the reader goes on, a tool is only executing for a task that holds a slot. -/
theorem Sound.executing_le_held (h : c.Sound server w) (hr : c.reader ≠ .stopped) :
    c.executing ≤ c.held := by
  refine List.countP_mono_left fun t ht hin => ?_
  obtain ⟨i, hi, rfl⟩ := List.getElem_of_mem ht
  have hs := h.tasks i _ (List.getElem?_eq_getElem hi)
  have hover (ended : Ended) (he : c.tasks[i].worker = some (.over ended)) : False := by
    simp [FrameTask.isInside, he, Progress.isInside] at hin
  have hnone (he : c.tasks[i].worker = none) : False := by
    simp [FrameTask.isInside, he] at hin
  unfold FrameTask.holdsSlot
  cases hstage : c.tasks[i].stage with
  | queued => exact (hnone (hs.queued hstage)).elim
  | holding => rfl
  | replying r =>
    obtain ⟨ended, he, -⟩ := hs.replying r hstage
    exact (hover ended he).elim
  | finished =>
    obtain ⟨ended, he⟩ := hs.finished hstage
    exact (hover ended he).elim
  | gone =>
    rcases hs.gone hstage with hg | ⟨hn, -⟩
    · exact absurd hg hr
    · exact (hnone hn).elim

theorem Sound.interruption (h : c.Sound server w) (hr : c.reader = .stopped)
    (ht : c.tasks[i]? = some t) : t.job.options.interruption w = some .signal := by
  have hc : Token.isCancelled w.cancelled (c.token.child i) :=
    Token.isCancelled_child (h.stopped hr) i
  exact Options.interruption_eq_signal_iff.mpr ⟨_, (h.tasks i t ht).options_cancel, hc⟩

/-- Once nothing is read any more, no worker enters a tool: the connection was cancelled before. -/
theorem Move.executing_le {a : ConnectionAction} (h : c.Move server offered w a d v)
    (hc : c.Sound server w) (hr : d.reader = .stopped) : d.executing ≤ c.executing := by
  cases h with
  | ignored | closed | refused | refusalQueued | refusalDropped | written | readerStopped
  | writerStopped => exact Nat.le_refl _
  | accepted hread => simp [hread] at hr
  | @task a i free t u v queue ha ht hm =>
    have hcount := countP_set FrameTask.isInside ht u
    have hin := hm.isInside (hc.interruption hr ht)
    have hle : u.isInside.toNat ≤ t.isInside.toNat := by
      cases hu : u.isInside with
      | false => exact Nat.zero_le _
      | true => simp [hin hu]
    simp only [executing]
    omega

theorem Reachable.free_add_held (h : Reachable server token slots c w) :
    c.free + c.held = slots := by
  induction h with
  | start w => simp [Connection.start, held]
  | act offered a _ hs ih => exact (move_of_step hs).free_add_held.trans ih
  | elapse _ _ ih => exact ih

theorem Reachable.executing_le (h : Reachable server token slots c w) : c.executing ≤ slots := by
  induction h with
  | start w => simp [Connection.start, executing]
  | @act c d w v offered a hr hs ih =>
    -- before the reader stops every tool runs for a slot, and after it nobody enters one
    by_cases hd : d.reader = .stopped
    · have hle := (move_of_step hs).executing_le hr.sound hd
      omega
    · have hd' : Reachable server token slots d v := hr.act offered a hs
      have hle := hd'.sound.executing_le_held hd
      have hfree := hd'.free_add_held
      omega
  | elapse _ _ ih => exact ih

end Connection

/-- No more frames of a connection than its slots have a tool executing, and the free slots and
those that tasks hold are always as many as there are. A task that no longer holds its slot has
given it back, and never holds one again. The run of a task that holds one goes on until it is over,
and then the slot can be given back, however the run ended. -/
theorem frame_slots_bounded (ho : Connection.opened server.config token = .ok (.start token slots))
    (h : Connection.Reachable server token slots c w) :
    c.executing ≤ max 1 server.config.maxFramesInFlight.toNat ∧
    c.free + c.held = max 1 server.config.maxFramesInFlight.toNat ∧
    (∀ offered a d v, c.step? server offered w a = some (d, v) → c.SlotMove d ∧
      ∀ i, c.holds i = true → d.holds i = false →
        d.free = c.free + 1 ∧ ∀ d' v', d.Later server v d' v' → d'.holds i = false) ∧
    ∀ offered i t, c.tasks[i]? = some t → c.holds i = true → ∃ p, t.worker = some p ∧
      ((∃ q v, p.step? server.engine t.job offered w = some (q, v) ∧
          c.step? server offered w (.work i) = some (c.setTask i { t with worker := some q }, v)) ∨
        ∃ ended d, p = .over ended ∧
          c.step? server offered w (.release i) = some (d, w) ∧ d.free = c.free + 1 ∧
          d.holds i = false) := by
  rw [← Connection.slots_of_opened ho]
  refine ⟨h.executing_le, h.free_add_held, fun offered a d v hs => ?_,
    fun offered i t ht hi => h.sound.work_or_release offered ht hi⟩
  have hm := (Connection.move_of_step hs).slotMove
  refine ⟨hm, fun i hi hd => ?_⟩
  obtain ⟨hf, hspent⟩ := hm.spent hi hd
  exact ⟨hf, fun d' v' hl => Connection.not_holds_of_spent (hl.spent hspent)⟩

end

/-- Two frames on a connection with one slot. The first is aborted inside its tool, and the second
takes the slot. -/
def crowdedActions : List ConnectionAction :=
  [.receive (.text tracedFrame), .receive (.text tracedFrame), .acquire 0, .work 0, .work 0,
    .stopReading, .abort 0, .acquire 1]

theorem frame_slots_bounded_crowded :
    let server : Server := ⟨⟨Registry.empty.register DebugTools.plugin, .memory⟩,
      { ServerConfig.default with maxFramesInFlight := 0 }⟩
    let s := ((Connection.start [7] 1).follow server .initial crowdedActions).getD
      (.start [7] 1, .initial)
    Connection.opened server.config [7] = .ok (.start [7] 1) ∧
    Connection.Reachable server [7] 1 s.1 s.2 ∧
    s.1.executing = 1 ∧ s.1.held = 1 ∧ s.1.executing ≤ 1 ∧ s.1.free + s.1.held = 1 := by
  intro server s
  have ho : Connection.opened server.config [7] = .ok (.start [7] 1) := by rfl
  have hs : (Connection.start [7] 1).follow server .initial crowdedActions = some s := by rfl
  have hr : Connection.Reachable server [7] 1 s.1 s.2 := (Connection.Reachable.start _).follow hs
  obtain ⟨hexecuting, hfree, -⟩ := frame_slots_bounded ho hr
  exact ⟨ho, hr, rfl, rfl, hexecuting, hfree⟩

end ToolPipeline
