import ToolPipeline.Proofs.Pipeline.Interruption
import ToolPipeline.Server.Connection

/-! What one action makes of a connection, told once: the moves of a task, with what becomes of the
free slots and of the queue, and the moves of the reader and the writer. -/

namespace ToolPipeline

def ConnectionAction.closes : ConnectionAction → Bool
  | .receive .close | .stopReading | .stopWriting => true
  | _ => false

/-- The task moves on to another state, in another world, and leaves so many slots free and these
replies in the queue. -/
inductive FrameTask.Move (server : Server) (offered : Nat) (w : World) (c : Connection)
    (t : FrameTask) : FrameTask → World → Nat → List Outbound → Prop where
  | acquired {free : Nat} : t.stage = .queued → c.free = free + 1 →
    Move server offered w c t
      { t with job := { t.job with began := w.now }, stage := .holding, worker := some .fresh } w
      free c.queue
  | gaveUp : t.stage = .queued → t.job.options.cancel.any (Token.isCancelled w.cancelled) = true →
    Move server offered w c t { t with stage := .gone } w c.free c.queue
  | worked {p q : Progress} {v : World} : t.worker = some p →
    p.step? server.engine t.job offered w = some (q, v) →
    Move server offered w c t { t with worker := some q } v c.free c.queue
  | released {ended : Ended} : t.stage = .holding → t.worker = some (.over ended) →
    Move server offered w c t { t with stage := .replying (t.frame.reply ended.outcome) } w
      (c.free + 1) c.queue
  | replyQueued {r : Reply} : t.stage = .replying r → c.writing = true →
    Move server offered w c t { t with stage := .finished } w c.free
      (c.queue ++ [(t.message, r)])
  | replyDropped {r : Reply} : t.stage = .replying r → c.writing = false →
    Move server offered w c t { t with stage := .finished } w c.free c.queue
  | aborted : c.reader = .stopped → t.isLive = true →
    Move server offered w c t { t with stage := .gone } w
      (if t.holdsSlot then c.free + 1 else c.free) c.queue

inductive Connection.Move (server : Server) (offered : Nat) (w : World) (c : Connection) :
    ConnectionAction → Connection → World → Prop where
  | ignored {m : Message} : c.reader = .reading → m ≠ .close → m.content? = none →
    Move server offered w c (.receive m) { c with received := c.received ++ [m] } w
  | closed : c.reader = .reading →
    Move server offered w c (.receive .close)
      { c with received := c.received ++ [.close], reader := .stopped } (c.cancel w)
  | refused {m : Message} {content : Option String} {r : Reply} : c.reader = .reading →
    m.content? = some content → Frame.read content = .error r →
    Move server offered w c (.receive m)
      { c with received := c.received ++ [m], reader := .sending c.received.length r } w
  | accepted {m : Message} {content : Option String} {f : Frame} : c.reader = .reading →
    m.content? = some content → Frame.read content = .ok f →
    Move server offered w c (.receive m)
      { c with
        received := c.received ++ [m], tasks := c.tasks ++ [c.taskOf server.config w.now f] } w
  | refusalQueued {n : Nat} {r : Reply} : c.reader = .sending n r → c.writing = true →
    Move server offered w c .enqueueRefusal
      { c with reader := .reading, queue := c.queue ++ [(n, r)] } w
  | refusalDropped {n : Nat} {r : Reply} : c.reader = .sending n r → c.writing = false →
    Move server offered w c .enqueueRefusal { c with reader := .reading } w
  | task {a : ConnectionAction} {i free : Nat} {t u : FrameTask} {v : World}
    {queue : List Outbound} : a.closes = false → c.tasks[i]? = some t →
    t.Move server offered w c u v free queue →
    Move server offered w c a { c with tasks := c.tasks.set i u, free, queue } v
  | written {o : Outbound} {rest : List Outbound} : c.writing = true → c.queue = o :: rest →
    Move server offered w c .write { c with queue := rest, sent := c.sent ++ [o] } w
  | readerStopped : (∀ n r, c.reader ≠ .sending n r) →
    Move server offered w c .stopReading { c with reader := .stopped } (c.cancel w)
  | writerStopped : c.writing = true →
    Move server offered w c .stopWriting { c with writing := false, queue := [] } (c.cancel w)

namespace Connection

variable {server : Server} {offered : Nat} {v w : World} {c d : Connection}

theorem enqueue_eq_some {o : Outbound} (h : c.enqueue o = some d) :
    c.writing = false ∧ d = c ∨ c.writing = true ∧ d = { c with queue := c.queue ++ [o] } := by
  unfold enqueue at h
  split at h
  · next hw => exact .inl ⟨by simpa using hw, (Option.some.inj h).symm⟩
  · next hw =>
    split at h
    · exact .inr ⟨by simpa using hw, (Option.some.inj h).symm⟩
    · cases h

theorem onTask_eq_some {i : Nat} {f : Nat → FrameTask → Option Connection}
    (h : c.onTask w i f = some (d, v)) : v = w ∧ ∃ t, c.tasks[i]? = some t ∧ f i t = some d := by
  simp only [onTask, Option.map_eq_some_iff, Option.bind_eq_some_iff, Prod.mk.injEq] at h
  obtain ⟨_, ⟨t, ht, hf⟩, rfl, rfl⟩ := h
  exact ⟨rfl, t, ht, hf⟩

theorem receive_of_read_error {m : Message} {content : Option String} {r : Reply}
    (hc : m.content? = some content) (hf : Frame.read content = .error r) (config : ServerConfig)
    (now : Nat) : c.receive config now m =
      { c with received := c.received ++ [m], reader := .sending c.received.length r } := by
  cases m <;> simp_all [receive, Message.content?]

theorem receive_of_read_ok {m : Message} {content : Option String} {f : Frame}
    (hc : m.content? = some content) (hf : Frame.read content = .ok f) (config : ServerConfig)
    (now : Nat) : c.receive config now m =
      { c with received := c.received ++ [m], tasks := c.tasks ++ [c.taskOf config now f] } := by
  cases m <;> simp_all [receive, Message.content?]

theorem receive_of_content_none {m : Message} (hm : m ≠ .close) (hc : m.content? = none)
    (config : ServerConfig) (now : Nat) :
    c.receive config now m = { c with received := c.received ++ [m] } := by
  cases m <;> simp_all [receive, Message.content?]

theorem move_of_receive {m : Message} (h : c.step? server offered w (.receive m) = some (d, v)) :
    c.Move server offered w (.receive m) d v := by
  have hr : c.reader = .reading := by
    cases hr : c.reader with
    | reading => rfl
    | sending n r => simp [step?, hr] at h
    | stopped => simp [step?, hr] at h
  obtain ⟨token, received, reader, tasks, free, queue, writing, sent⟩ := c
  obtain rfl : reader = .reading := hr
  obtain ⟨rfl, rfl⟩ := Prod.mk.inj (Option.some.inj h)
  by_cases hm : m = .close
  · subst hm
    exact .closed rfl
  · cases hc : m.content? with
    | none =>
      rw [receive_of_content_none hm hc]
      exact .ignored rfl hm hc
    | some content =>
      cases hf : Frame.read content with
      | error r =>
        rw [receive_of_read_error hc hf]
        exact .refused rfl hc hf
      | ok f =>
        rw [receive_of_read_ok hc hf]
        exact .accepted rfl hc hf

theorem move_of_step {a : ConnectionAction} (h : c.step? server offered w a = some (d, v)) :
    c.Move server offered w a d v := by
  cases a with
  | receive m => exact move_of_receive h
  | enqueueRefusal =>
    obtain ⟨d, hd, hp⟩ := Option.map_eq_some_iff.mp h
    cases hp
    unfold enqueueRefusal at hd
    split at hd
    · next n r hr =>
      rcases enqueue_eq_some hd with ⟨hw, rfl⟩ | ⟨hw, rfl⟩
      · exact .refusalDropped hr hw
      · exact .refusalQueued hr hw
    · cases hd
  | acquire i =>
    obtain ⟨rfl, t, ht, ha⟩ := onTask_eq_some h
    unfold acquire at ha
    split at ha
    · next free hs hf =>
      cases ha
      exact .task rfl ht (.acquired hs hf)
    · cases ha
  | giveUp i =>
    obtain ⟨rfl, t, ht, ha⟩ := onTask_eq_some h
    unfold giveUp at ha
    split at ha
    · next hs =>
      split at ha
      · next hc =>
        cases ha
        exact .task rfl ht (.gaveUp hs hc)
      · cases ha
    · cases ha
  | work i =>
    obtain ⟨t, ht, hw⟩ := Option.bind_eq_some_iff.mp h
    simp only [work, bind, Option.bind_eq_some_iff, pure, Option.some.injEq, Prod.mk.injEq] at hw
    obtain ⟨p, hp, ⟨q, u⟩, hq, rfl, rfl⟩ := hw
    exact .task rfl ht (.worked hp hq)
  | release i =>
    obtain ⟨rfl, t, ht, ha⟩ := onTask_eq_some h
    unfold release at ha
    split at ha
    · next ended hs he =>
      cases ha
      obtain ⟨p, hp, ho⟩ := Option.bind_eq_some_iff.mp he
      cases p <;> cases ho
      exact .task rfl ht (.released hs hp)
    · cases ha
  | enqueueReply i =>
    obtain ⟨rfl, t, ht, ha⟩ := onTask_eq_some h
    unfold enqueueReply at ha
    split at ha
    · next r hs =>
      rcases enqueue_eq_some ha with ⟨hw, rfl⟩ | ⟨hw, rfl⟩
      · exact .task rfl ht (.replyDropped hs hw)
      · exact .task rfl ht (.replyQueued hs hw)
    · cases ha
  | abort i =>
    obtain ⟨rfl, t, ht, ha⟩ := onTask_eq_some h
    unfold abort at ha
    split at ha
    · next hr =>
      split at ha
      · next hl =>
        cases ha
        exact .task rfl ht (.aborted hr hl)
      · cases ha
    · cases ha
  | write =>
    obtain ⟨d, hd, hp⟩ := Option.map_eq_some_iff.mp h
    cases hp
    unfold write at hd
    split at hd
    · next o rest hw hq =>
      cases hd
      exact .written hw hq
    · cases hd
  | stopReading =>
    simp only [step?, stopReading] at h
    split at h
    · cases h
    · next hr =>
      cases h
      exact .readerStopped hr
  | stopWriting =>
    simp only [step?, stopWriting] at h
    split at h
    · next hw =>
      cases h
      exact .writerStopped hw
    · cases h

theorem opened_eq_ok {config : ServerConfig} {token : Token} (h : opened config token = .ok c) :
    c = .start token (max 1 config.maxFramesInFlight.toNat) := by
  unfold opened at h
  cases hp : config.pongTimeoutSecs with
  | error p => simp [hp, bind, Except.bind] at h
  | ok secs =>
    unfold ServerConfig.slots at h
    by_cases hm : max config.maxFramesInFlight.toNat 1 ≤ ServerConfig.mostSlots
    · simp only [hp, hm, if_true, bind, Except.bind, pure, Except.pure, Except.ok.injEq] at h
      rw [← h, Nat.max_comm]
    · simp [hp, hm, bind, Except.bind] at h

theorem slots_of_opened {config : ServerConfig} {token : Token} {slots : Nat}
    (h : opened config token = .ok (.start token slots)) :
    slots = max 1 config.maxFramesInFlight.toNat := congrArg free (opened_eq_ok h)

variable {i : Nat} {t : FrameTask}

theorem step_release {ended : Ended} (ht : c.tasks[i]? = some t) (hs : t.stage = .holding)
    (hw : t.worker = some (.over ended)) : c.step? server offered w (.release i) =
      some ({ c.setTask i { t with stage := .replying (t.frame.reply ended.outcome) } with
        free := c.free + 1 }, w) := by
  simp [step?, onTask, ht, release, hs, hw, Progress.ended?]

theorem step_work {p q : Progress} (ht : c.tasks[i]? = some t) (hw : t.worker = some p)
    (hs : p.step? server.engine t.job offered w = some (q, v)) :
    c.step? server offered w (.work i) = some (c.setTask i { t with worker := some q }, v) := by
  simp [step?, ht, work, hw, hs]

end Connection

end ToolPipeline
