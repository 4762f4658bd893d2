import ToolPipeline.Proofs.NumberedEntries
import ToolPipeline.Proofs.Server.ConnectionMoves

/-! What holds of a connection after any actions: its tasks are in the stage of their run, the run
of a task keeps to its course, and a reader or a writer that has stopped has cancelled the
connection. -/

namespace ToolPipeline

namespace Message

def frame? (m : Message) : Option Frame :=
  m.content?.bind fun content => (Frame.read content).toOption

def refusal? (m : Message) : Option Reply :=
  m.content?.bind fun content =>
    match Frame.read content with
    | .error r => some r
    | .ok _ => none

variable {m : Message} {content : Option String}

theorem frame?_of_read {f : Frame} (hc : m.content? = some content)
    (hf : Frame.read content = .ok f) : m.frame? = some f := by
  simp [frame?, hc, hf, Except.toOption]

theorem refusal?_of_read {r : Reply} (hc : m.content? = some content)
    (hf : Frame.read content = .error r) : m.refusal? = some r := by
  simp [refusal?, hc, hf]

theorem refusal?_of_frame? {f : Frame} (h : m.frame? = some f) : m.refusal? = none := by
  obtain ⟨content, hc, hf⟩ := Option.bind_eq_some_iff.mp h
  cases hr : Frame.read content with
  | error r => simp [hr, Except.toOption] at hf
  | ok g => simp [refusal?, hc, hr]

end Message

def Connection.frameAt? (c : Connection) (n : Nat) : Option Frame :=
  (c.received[n]?).bind Message.frame?

def Connection.refusalAt? (c : Connection) (n : Nat) : Option Reply :=
  (c.received[n]?).bind Message.refusal?

/-- What a connection never takes back, in a world in which nothing is taken back. -/
structure Connection.Grows (c d : Connection) (w v : World) : Prop where
  token : d.token = c.token
  received : c.received <+: d.received
  stopped : c.reader = .stopped → d.reader = .stopped
  world : w.Before v

/-- A job has been taken through steps in worlds that came before this one. -/
def Progress.Along (e : Engine) (j : Job) (w : World) (p : Progress) : Prop :=
  ∃ found n, (∀ i, (found i).2.Before w) ∧ p = Progress.after e j found n

/-- A task in the stage of its run, the one with this number on the connection. -/
structure FrameTask.Sound (server : Server) (c : Connection) (w : World) (i : Nat)
    (t : FrameTask) : Prop where
  frame : c.frameAt? t.message = some t.frame
  request : t.job.request = t.frame.request
  options : ∃ arrival ≤ w.now,
    t.job.options = Frame.options server.config (c.token.child i) arrival
  along : ∀ p, t.worker = some p → p.Along server.engine t.job w
  queued : t.stage = .queued → t.worker = none
  holding : t.stage = .holding → ∃ p, t.worker = some p
  replying : ∀ r, t.stage = .replying r →
    ∃ ended, t.worker = some (.over ended) ∧ r = t.frame.reply ended.outcome
  finished : t.stage = .finished → ∃ ended, t.worker = some (.over ended)
  gone : t.stage = .gone → c.reader = .stopped ∨
    t.worker = none ∧ Token.isCancelled w.cancelled (c.token.child i)

structure Connection.Sound (server : Server) (c : Connection) (w : World) : Prop where
  tasks : ∀ (i : Nat) (t : FrameTask), c.tasks[i]? = some t → t.Sound server c w i
  stopped : c.reader = .stopped → c.isCancelled w
  silent : c.writing = false → c.isCancelled w

section
variable {server : Server} {offered : Nat} {v w : World} {c d : Connection} {e : Engine} {j : Job}
  {p q : Progress} {t u : FrameTask} {i free : Nat} {queue : List Outbound}

theorem Progress.Along.mono (h : p.Along e j w) (hb : w.Before v) : p.Along e j v := by
  obtain ⟨found, n, hf, hp⟩ := h
  exact ⟨found, n, fun i => (hf i).trans hb, hp⟩

theorem Progress.Along.fresh (e : Engine) (j : Job) (w : World) : Progress.fresh.Along e j w :=
  ⟨fun _ => (0, w), 0, fun _ => .refl w, rfl⟩

theorem Progress.Along.step (h : p.Along e j w) (hs : p.step? e j offered w = some (q, v)) :
    q.Along e j v := by
  obtain ⟨found, n, hf, rfl⟩ := h
  let found' : Nat → Nat × World := fun i => if i = n then (offered, w) else found i
  have hb := Progress.before_of_step hs
  have hn : found' n = (offered, w) := if_pos rfl
  have hsame : after e j found n = after e j found' n :=
    after_congr fun i hi => (if_neg (by omega)).symm
  refine ⟨found', n + 1, fun i => ?_, ?_⟩
  · by_cases hi : i = n
    · rw [hi, hn]
      exact hb
    · rw [show found' i = found i from if_neg hi]
      exact (hf i).trans hb
  · have hs' : (after e j found n).step? e j (found' n).1 (found' n).2 = some (q, v) := hn ▸ hs
    exact (after_succ hsame.symm hs').symm

namespace Connection.Grows

theorem getElem?_received (h : c.Grows d w v) {n : Nat} {m : Message}
    (hm : c.received[n]? = some m) : d.received[n]? = some m := by
  obtain ⟨hn, rfl⟩ := List.getElem?_eq_some_iff.mp hm
  exact (List.prefix_iff_getElem?.mp h.received) n hn

theorem frameAt? (h : c.Grows d w v) {n : Nat} {f : Frame} (hf : c.frameAt? n = some f) :
    d.frameAt? n = some f := by
  obtain ⟨m, hm, hmf⟩ := Option.bind_eq_some_iff.mp hf
  exact Option.bind_eq_some_iff.mpr ⟨m, h.getElem?_received hm, hmf⟩

theorem refusalAt? (h : c.Grows d w v) {n : Nat} {r : Reply} (hr : c.refusalAt? n = some r) :
    d.refusalAt? n = some r := by
  obtain ⟨m, hm, hmr⟩ := Option.bind_eq_some_iff.mp hr
  exact Option.bind_eq_some_iff.mpr ⟨m, h.getElem?_received hm, hmr⟩

theorem isCancelled (h : c.Grows d w v) (hc : c.isCancelled w) : d.isCancelled v := by
  unfold Connection.isCancelled at hc ⊢
  rw [h.token]
  exact h.world.2 c.token hc

theorem sound (h : c.Grows d w v) (ht : t.Sound server c w i) : t.Sound server d v i where
  frame := h.frameAt? ht.frame
  request := ht.request
  options := by
    obtain ⟨arrival, ha, ho⟩ := ht.options
    exact ⟨arrival, Nat.le_trans ha h.world.1, h.token ▸ ho⟩
  along p hp := (ht.along p hp).mono h.world
  queued := ht.queued
  holding := ht.holding
  replying := ht.replying
  finished := ht.finished
  gone hs := by
    rcases ht.gone hs with hr | ⟨hw, hc⟩
    · exact .inl (h.stopped hr)
    · exact .inr ⟨hw, h.token ▸ h.world.2 _ hc⟩

end Connection.Grows

theorem FrameTask.Move.before (h : t.Move server offered w c u v free queue) : w.Before v := by
  cases h with
  | worked _ hs => exact Progress.before_of_step hs
  | acquired | gaveUp | released | replyQueued | replyDropped | aborted => exact .refl v

theorem Connection.before_cancel (c : Connection) (w : World) : w.Before (c.cancel w) :=
  World.before_fire w c.token

theorem Connection.isCancelled_cancel (c : Connection) (w : World) :
    c.isCancelled (c.cancel w) := by
  have hm : c.token ∈ (c.cancel w).cancelled := World.mem_cancelled.mpr (.inl List.mem_cons_self)
  exact Token.isCancelled_iff.mpr ⟨c.token, hm, List.suffix_refl _⟩

theorem Connection.Move.grows {a : ConnectionAction} (h : c.Move server offered w a d v) :
    c.Grows d w v := by
  cases h with
  | ignored hr | refused hr | accepted hr =>
    exact ⟨rfl, List.prefix_append .., fun hs => by simp [hr] at hs, .refl v⟩
  | closed hr => exact ⟨rfl, List.prefix_append .., fun _ => rfl, before_cancel c w⟩
  | refusalQueued hr | refusalDropped hr =>
    exact ⟨rfl, List.prefix_refl _, fun hs => by simp [hr] at hs, .refl v⟩
  | task _ _ hm => exact ⟨rfl, List.prefix_refl _, id, hm.before⟩
  | written => exact ⟨rfl, List.prefix_refl _, id, .refl v⟩
  | readerStopped => exact ⟨rfl, List.prefix_refl _, fun _ => rfl, before_cancel c w⟩
  | writerStopped => exact ⟨rfl, List.prefix_refl _, id, before_cancel c w⟩

theorem Frame.deadline_options (config : ServerConfig) (token : Token) (now : Nat) :
    (options config token now).deadline = config.frameTimeout.map fun ms => now + ms.toNat := by
  unfold options
  cases config.frameTimeout <;> rfl

theorem FrameTask.Sound.options_cancel (h : t.Sound server c w i) :
    t.job.options.cancel = some (c.token.child i) := by
  obtain ⟨arrival, -, ho⟩ := h.options
  rw [ho, Frame.options]
  cases server.config.frameTimeout <;> rfl

theorem FrameTask.Move.sound (h : t.Move server offered w c u v free queue)
    (ht : t.Sound server c w i) : u.Sound server c v i := by
  have hg : c.Grows c w v := ⟨rfl, List.prefix_refl _, id, h.before⟩
  have hv := hg.sound ht
  cases h with
  | acquired hs hf =>
    exact ⟨hv.frame, hv.request, hv.options,
      fun p hp => Option.some.inj hp ▸ .fresh _ _ v, nofun, fun _ => ⟨_, rfl⟩, nofun, nofun, nofun⟩
  | gaveUp hs hc =>
    have hn := ht.queued hs
    rw [ht.options_cancel, Option.any_some] at hc
    exact ⟨hv.frame, hv.request, hv.options, hv.along, nofun, nofun, nofun, nofun,
      fun _ => .inr ⟨hn, hc⟩⟩
  | worked hp hs =>
    have hover (ended : Ended) (he : t.worker = some (.over ended)) : False := by
      rw [hp, Option.some.injEq] at he
      subst he
      cases hs
    refine ⟨hv.frame, hv.request, hv.options, fun p' hp' => ?_, fun hq => ?_, fun _ => ⟨_, rfl⟩,
      fun r hr => ?_, fun hf => ?_, fun hg => ?_⟩
    · exact Option.some.inj hp' ▸ (ht.along _ hp).step hs
    · simp [ht.queued hq] at hp
    · obtain ⟨ended, he, -⟩ := ht.replying r hr
      exact (hover ended he).elim
    · obtain ⟨ended, he⟩ := ht.finished hf
      exact (hover ended he).elim
    · rcases ht.gone hg with hr | ⟨hn, -⟩
      · exact .inl hr
      · simp [hn] at hp
  | released hs hw =>
    exact ⟨hv.frame, hv.request, hv.options, hv.along, nofun, nofun,
      fun r hr => ⟨_, hw, by cases hr; rfl⟩, nofun, nofun⟩
  | replyQueued hs | replyDropped hs =>
    obtain ⟨ended, he, -⟩ := ht.replying _ hs
    exact ⟨hv.frame, hv.request, hv.options, hv.along, nofun, nofun, nofun, fun _ => ⟨ended, he⟩,
      nofun⟩
  | aborted hr =>
    exact ⟨hv.frame, hv.request, hv.options, hv.along, nofun, nofun, nofun, nofun,
      fun _ => .inl hr⟩

namespace Connection

theorem Move.sound {a : ConnectionAction} (h : c.Move server offered w a d v)
    (hc : c.Sound server w) : d.Sound server v := by
  have hg := h.grows
  have htasks (i : Nat) (t : FrameTask) (ht : c.tasks[i]? = some t) : t.Sound server d v i :=
    hg.sound (hc.tasks i t ht)
  have hstopped (hs : c.reader = .stopped) : d.isCancelled v := hg.isCancelled (hc.stopped hs)
  have hsilent (hs : c.writing = false) : d.isCancelled v := hg.isCancelled (hc.silent hs)
  cases h with
  | ignored | written => exact ⟨htasks, hstopped, hsilent⟩
  | closed => exact ⟨htasks, fun _ => isCancelled_cancel c w, hsilent⟩
  | @accepted m content f hr hm hf =>
    refine ⟨forall_getElem?_concat ?_ htasks, hstopped, hsilent⟩
    have hm' : ({ c with
        received := c.received ++ [m], tasks := c.tasks ++ [c.taskOf server.config v.now f] } :
          Connection).frameAt? c.received.length = some f := by
      simpa [frameAt?] using Message.frame?_of_read hm hf
    exact ⟨hm', rfl, ⟨v.now, Nat.le_refl _, rfl⟩, nofun, fun _ => rfl, nofun, nofun, nofun, nofun⟩
  | refused | refusalQueued | refusalDropped => exact ⟨htasks, nofun, hsilent⟩
  | @task a i free t u v queue ha ht hm =>
    have hu : u.Sound server c v i := hm.sound (hc.tasks i t ht)
    have hd : c.Grows { c with tasks := c.tasks.set i u, free, queue } v v :=
      ⟨rfl, List.prefix_refl _, id, .refl v⟩
    exact ⟨forall_getElem?_set ht (hd.sound hu) htasks, hstopped, hsilent⟩
  | readerStopped => exact ⟨htasks, fun _ => isCancelled_cancel c w, hsilent⟩
  | writerStopped =>
    exact ⟨htasks, hstopped, fun _ => isCancelled_cancel c w⟩

theorem start_sound (server : Server) (token : Token) (slots : Nat) (w : World) :
    (start token slots).Sound server w := ⟨by simp [start], nofun, nofun⟩

theorem Sound.mono (hc : c.Sound server w) (hb : w.Before v) : c.Sound server v := by
  have hg : c.Grows c w v := ⟨rfl, List.prefix_refl _, id, hb⟩
  exact ⟨fun i t ht => hg.sound (hc.tasks i t ht), fun hs => hg.isCancelled (hc.stopped hs),
    fun hs => hg.isCancelled (hc.silent hs)⟩

variable {token : Token} {slots : Nat}

theorem Reachable.sound (h : Reachable server token slots c w) : c.Sound server w := by
  induction h with
  | start w => exact start_sound server token slots w
  | act offered a _ hs ih => exact (move_of_step hs).sound ih
  | elapse _ hb ih => exact ih.mono hb

def follow (server : Server) (c : Connection) (w : World) :
    List ConnectionAction → Option (Connection × World)
  | [] => some (c, w)
  | a :: rest => (c.step? server 0 w a).bind fun (d, v) => d.follow server v rest

theorem Reachable.follow (h : Reachable server token slots c w) {actions : List ConnectionAction}
    {s : Connection × World} (hs : c.follow server w actions = some s) :
    Reachable server token slots s.1 s.2 := by
  induction actions generalizing c w with
  | nil =>
    obtain rfl := Option.some.inj hs
    exact h
  | cons a rest ih =>
    obtain ⟨⟨d, v⟩, hd, hs⟩ := Option.bind_eq_some_iff.mp hs
    exact ih (h.act 0 a hd) hs

end Connection

end

end ToolPipeline
