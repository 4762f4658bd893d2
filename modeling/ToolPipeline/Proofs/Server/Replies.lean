import ToolPipeline.Proofs.Server.ReplyAccounts

/-! The replies on a connection. Each is the reply to one message and tells what became of it, no
message has two, and refusals leave in the order of their messages. -/

namespace ToolPipeline

def Reply.frameId : Reply → String
  | .result frameId _ => frameId
  | .error frameId _ _ => frameId

namespace Message

def frameId (m : Message) : String :=
  match m.content? with
  | some (some s) =>
    match Frame.parse s with
    | .ok f => f.frameId
    | .error (frameId, _) => frameId
  | _ => ""

variable {m : Message}

end Message

def FrameTask.reply? (t : FrameTask) : Option Outbound :=
  match t.stage with
  | .replying r => some (t.message, r)
  | _ => none

def Reader.reply? : Reader → Option Outbound
  | .sending n r => some (n, r)
  | _ => none

namespace Connection

/-- The replies that have been sent, those that wait for the writer, and that of the reader. -/
def line (c : Connection) : List Outbound := c.sent ++ c.queue ++ c.reader.reply?.toList

def replies (c : Connection) : List Outbound := c.line ++ c.tasks.filterMap FrameTask.reply?

def refuses (c : Connection) (o : Outbound) : Bool := (c.refusalAt? o.1).isSome

/-- A message was refused with this reply, or a run of its frame has the outcome that is told. -/
def Backed (c : Connection) (o : Outbound) : Prop :=
  c.refusalAt? o.1 = some o.2 ∨ ∃ (i : Nat) (t : FrameTask) (ended : Ended),
    c.tasks[i]? = some t ∧ t.message = o.1 ∧ t.worker = some (.over ended) ∧
      o.2 = t.frame.reply ended.outcome

/-- The frames of a connection are only cancelled with the connection. -/
def FramesSpared (c : Connection) (w : World) : Prop :=
  ∀ i, Token.isCancelled w.cancelled (c.token.child i) → c.isCancelled w

end Connection

section
variable {server : Server} {offered : Nat} {v w : World} {c d : Connection} {t u : FrameTask}
  {i free : Nat} {queue : List Outbound} {token : Token} {slots : Nat} {o : Outbound}

theorem FrameTask.Move.message_eq (h : t.Move server offered w c u v free queue) :
    u.message = t.message ∧ u.frame = t.frame := by
  cases h <;> exact ⟨rfl, rfl⟩

theorem FrameTask.Move.over (h : t.Move server offered w c u v free queue)
    (ht : t.Sound server c w i) {ended : Ended} (hw : t.worker = some (.over ended)) :
    u.worker = some (.over ended) := by
  cases h with
  | acquired hs => simp [ht.queued hs] at hw
  | worked hp hs =>
    rw [hp, Option.some.injEq] at hw
    subst hw
    cases hs
  | gaveUp | released | replyQueued | replyDropped | aborted => exact hw

namespace Connection

theorem refusalAt?_of_frameAt? {n : Nat} {f : Frame} (h : c.frameAt? n = some f) :
    c.refusalAt? n = none := by
  obtain ⟨m, hm, hf⟩ := Option.bind_eq_some_iff.mp h
  simp [refusalAt?, hm, Message.refusal?_of_frame? hf]

theorem Move.backed {a : ConnectionAction} (h : c.Move server offered w a d v)
    (hc : c.Sound server w) (ho : c.Backed o) : d.Backed o := by
  rcases ho with hr | ⟨i, t, ended, ht, hn, hw, hr⟩
  · exact .inl (h.grows.refusalAt? hr)
  · refine .inr ?_
    cases h with
    | ignored | closed | refused | refusalQueued | refusalDropped | written | readerStopped
    | writerStopped => exact ⟨i, t, ended, ht, hn, hw, hr⟩
    | accepted =>
      obtain ⟨hi, -⟩ := List.getElem?_eq_some_iff.mp ht
      exact ⟨i, t, ended, (List.getElem?_append_left hi).trans ht, hn, hw, hr⟩
    | @task a k free x u v queue ha hx hm =>
      obtain ⟨hi, -⟩ := List.getElem?_eq_some_iff.mp ht
      by_cases hk : k = i
      · subst hk
        obtain rfl : x = t := Option.some.inj (hx.symm.trans ht)
        obtain ⟨hmessage, hframe⟩ := hm.message_eq
        have hover := hm.over (hc.tasks k x hx) hw
        exact ⟨k, u, ended, List.getElem?_set_self hi, hmessage.trans hn, hover,
          hframe ▸ hr⟩
      · exact ⟨i, t, ended, (List.getElem?_set_ne hk).trans ht, hn, hw, hr⟩

theorem Sound.backed_of_replying (hc : c.Sound server w) (ht : c.tasks[i]? = some t) {r : Reply}
    (hs : t.stage = .replying r) : c.Backed (t.message, r) := by
  obtain ⟨ended, he, hr⟩ := (hc.tasks i t ht).replying r hs
  exact .inr ⟨i, t, ended, ht, rfl, he, hr⟩

/-- What a step makes of the line: no more of it, or a refusal of the latest message at its end, or
the reply of a task somewhere in between. -/
theorem Move.line {a : ConnectionAction} (h : c.Move server offered w a d v)
    (hc : c.Sound server w) :
    d.line.Sublist c.line ∨
    (∃ r : Reply, d.line = c.line ++ [(c.received.length, r)] ∧
      d.refusalAt? c.received.length = some r) ∨
    ∃ (o : Outbound) (front back : List Outbound), c.line = front ++ back ∧
      d.line = front ++ o :: back ∧ c.Backed o ∧ c.refuses o = false := by
  cases h with
  | ignored | accepted => exact .inl (List.Sublist.refl _)
  | closed hr => exact .inl (by simp [Connection.line, hr, Reader.reply?])
  | @refused m content r hr hm hf =>
    refine .inr (.inl ⟨r, by simp [Connection.line, hr, Reader.reply?], ?_⟩)
    simpa [refusalAt?] using Message.refusal?_of_read hm hf
  | refusalQueued hr => exact .inl (by simp [Connection.line, hr, Reader.reply?])
  | refusalDropped hr => exact .inl (by simp [Connection.line, hr, Reader.reply?])
  | @task a i free t u v queue ha ht hm =>
    cases hm with
    | acquired | gaveUp | worked | released | replyDropped | aborted =>
      exact .inl (List.Sublist.refl _)
    | @replyQueued r hs =>
      have hb := hc.backed_of_replying ht hs
      have hn : c.refuses (t.message, r) = false := by
        simp [refuses, refusalAt?_of_frameAt? (hc.tasks i t ht).frame]
      exact .inr (.inr ⟨(t.message, r), c.sent ++ c.queue, c.reader.reply?.toList, rfl,
        by simp [Connection.line], hb, hn⟩)
  | written hw hq => exact .inl (by simp [Connection.line, hq])
  | readerStopped hr =>
    have hn : c.reader.reply? = none := by
      cases hread : c.reader with
      | sending n r => exact absurd hread (hr n r)
      | reading | stopped => rfl
    rw [Connection.line, Connection.line, hn]
    exact .inl (List.Sublist.refl _)
  | writerStopped =>
    exact .inl (by simp [Connection.line])

theorem Grows.refuses_eq (h : c.Grows d w v) (hc : c.Sound server w) (ho : c.Backed o) :
    d.refuses o = c.refuses o := by
  rcases ho with hr | ⟨i, t, ended, ht, hn, -, -⟩
  · simp [refuses, hr, h.refusalAt? hr]
  · have hf : c.frameAt? o.1 = some t.frame := hn ▸ (hc.tasks i t ht).frame
    simp [refuses, refusalAt?_of_frameAt? hf, refusalAt?_of_frameAt? (h.frameAt? hf)]

theorem Backed.lt_length (ho : c.Backed o) (hc : c.Sound server w) : o.1 < c.received.length := by
  have hm : ∃ m, c.received[o.1]? = some m := by
    rcases ho with hr | ⟨i, t, ended, ht, hn, -, -⟩
    · obtain ⟨m, hm, -⟩ := Option.bind_eq_some_iff.mp hr
      exact ⟨m, hm⟩
    · obtain ⟨m, hm, -⟩ := Option.bind_eq_some_iff.mp (hc.tasks i t ht).frame
      exact ⟨m, hn ▸ hm⟩
  obtain ⟨m, hm⟩ := hm
  exact (List.getElem?_eq_some_iff.mp hm).1

/-- Everything in the line is backed, and refusals stand in the order of their messages. -/
structure Lined (c : Connection) : Prop where
  backed : ∀ o ∈ c.line, c.Backed o
  ordered : (c.line.filter c.refuses).Pairwise fun o p => o.1 < p.1

theorem Move.lined {a : ConnectionAction} (h : c.Move server offered w a d v)
    (hc : c.Sound server w) (hl : c.Lined) : d.Lined := by
  have hg := h.grows
  have hbacked (o : Outbound) (ho : o ∈ c.line) : d.Backed o := h.backed hc (hl.backed o ho)
  -- new messages do not change what was refused among the old ones
  have hsame : c.line.filter d.refuses = c.line.filter c.refuses :=
    List.filter_congr fun o ho => hg.refuses_eq hc (hl.backed o ho)
  have hordered : (c.line.filter d.refuses).Pairwise fun o p => o.1 < p.1 := hsame ▸ hl.ordered
  rcases h.line hc with hs | ⟨r, hd, hr⟩ | ⟨x, front, back, hcl, hd, hx, hn⟩
  · exact ⟨fun o ho => hbacked o (hs.subset ho), hordered.sublist (hs.filter _)⟩
  · refine ⟨fun o ho => ?_, ?_⟩
    · rw [hd, List.mem_append, List.mem_singleton] at ho
      rcases ho with ho | rfl
      · exact hbacked o ho
      · exact .inl hr
    · rw [hd, List.filter_append]
      refine List.pairwise_append.mpr ⟨hordered, ?_, fun o ho p hp => ?_⟩
      · exact (List.pairwise_singleton _ _).sublist List.filter_sublist
      · have hp' := List.mem_singleton.mp (List.mem_filter.mp hp).1
        subst hp'
        exact (hl.backed o (List.mem_filter.mp ho).1).lt_length hc
  · refine ⟨fun o ho => ?_, ?_⟩
    · rw [hd, List.mem_append, List.mem_cons] at ho
      rcases ho with ho | rfl | ho
      · exact hbacked o (hcl ▸ List.mem_append_left _ ho)
      · exact h.backed hc hx
      · exact hbacked o (hcl ▸ List.mem_append_right _ ho)
    · have hx' : d.refuses x = false := (hg.refuses_eq hc hx).trans hn
      rw [hd, List.filter_append, List.filter_cons_of_neg (by simp [hx']), ← List.filter_append,
        ← hcl]
      exact hordered

theorem Reachable.lined (h : Reachable server token slots c w) : c.Lined := by
  induction h with
  | start w => exact ⟨nofun, List.Pairwise.nil⟩
  | act offered a hr hs ih => exact (move_of_step hs).lined hr.sound ih
  | elapse _ _ ih => exact ih

theorem Reachable.backed (h : Reachable server token slots c w) (ho : o ∈ c.replies) :
    c.Backed o := by
  rcases List.mem_append.mp ho with hline | htask
  · exact h.lined.backed o hline
  · obtain ⟨t, ht, hr⟩ := List.mem_filterMap.mp htask
    obtain ⟨i, hi, rfl⟩ := List.getElem_of_mem ht
    unfold FrameTask.reply? at hr
    split at hr
    · next r hs =>
      obtain rfl := Option.some.inj hr
      exact h.sound.backed_of_replying (List.getElem?_eq_getElem hi) hs
    · cases hr

end Connection

namespace Connection

end Connection

end

end ToolPipeline
