import ToolPipeline.Proofs.Server.AnswerTexts
import ToolPipeline.Proofs.Server.Replies

/-! The texts of replies. Whoever reads the text of a reply gets the reply back, with the whole
payload in one place of its own, so no payload passes for an error and no two replies have one
text. -/

namespace ToolPipeline

open Json

namespace Reply

def isError : Reply → Bool
  | .result .. => false
  | .error .. => true

def Whole (r : Reply) : Prop := ∀ n ∈ r.toJson.numbers, n.IsWhole

def depth : Reply → Nat
  | .result _ payload => (ofObject payload).nesting + 1
  | .error .. => 1

/-- An object says what the reply says, and nothing else. -/
inductive Tells : Reply → Object → Prop
  | result {id : String} {payload : Payload} {o : Object}
    (frameId : o.get? "frame_id" = some (.string id))
    (result : o.get? "result" = some (.object payload))
    (only : ∀ key, key ∉ ["frame_id", "result"] → o.get? key = none) :
    Tells (.result id payload) o
  | error {id text : String} {code : Option String} {o : Object}
    (type : o.get? "type" = some (.string "error"))
    (message : o.get? "message" = some (.string text))
    (frameId : o.get? "frame_id" = some (.string id))
    (coded : o.get? "code" = code.map .string)
    (only : ∀ key, key ∉ ["type", "message", "frame_id", "code"] → o.get? key = none) :
    Tells (.error id text code) o

section
variable {r r' : Reply} {o : Object} {depth : Nat}

theorem nesting_toJson (r : Reply) : r.toJson.nesting = r.depth := by
  cases r with
  | result id payload => simp [toJson, nesting, membersNesting, Reply.depth]
  | error id message code => cases code <;> rfl

theorem tells_held (r : Reply) : r.Tells r.held := by
  cases r with
  | result id payload =>
    refine .result ?_ ?_ fun key hk => ?_
    · simp [held, Object.get?_insert]
    · simp [held]
    · simp only [List.mem_cons, List.not_mem_nil, or_false, not_or] at hk
      simp [held, Object.get?_insert, hk.1, hk.2]
  | error id message code =>
    cases code <;> refine .error ?_ ?_ ?_ ?_ fun key hk => ?_
    case none.refine_5 | some.refine_5 =>
      simp only [List.mem_cons, List.not_mem_nil, or_false, not_or] at hk
      obtain ⟨htype, hmessage, hid, hcode⟩ := hk
      simp [held, Object.get?_insert, htype, hmessage, hid, hcode]
    all_goals simp [held, Object.get?_insert]

theorem Tells.type_iff (h : r.Tells o) :
    o.get? "type" = some (.string "error") ↔ r.isError = true := by
  cases h with
  | result _ _ only => simp [only "type" (by decide), isError]
  | error type => simp [type, isError]

theorem Tells.unique (h : r.Tells o) (h' : r'.Tells o) : r' = r := by
  have hkind : r'.isError = r.isError :=
    Bool.eq_iff_iff.mpr (h'.type_iff.symm.trans h.type_iff)
  cases h with
  | result frameId result =>
    cases h' with
    | error => cases hkind
    | result frameId' result' =>
      rw [frameId, Option.some.injEq, Value.string_inj] at frameId'
      rw [result, Option.some.injEq, Value.object_inj] at result'
      rw [frameId', result']
  | error _ message frameId coded =>
    cases h' with
    | result => cases hkind
    | error _ message' frameId' coded' =>
      rw [message, Option.some.injEq, Value.string_inj] at message'
      rw [frameId, Option.some.injEq, Value.string_inj] at frameId'
      have hcode := Option.map_injective (fun _ _ => Value.string_inj.mp) (coded.symm.trans coded')
      rw [message', frameId', hcode]

theorem text_ne_empty (r : Reply) : r.text ≠ "" := by
  intro h
  have hchars : chars r.toJson = [] := by
    have hlist := congrArg String.toList h
    rwa [text, compact, String.toList_ofList] at hlist
  cases r <;> cases hchars

variable (h : r.Whole)
include h

theorem parse_text (hd : r.depth ≤ depth) :
    ∃ o, parseWithin depth r.text = .ok (.object o) ∧ r.Tells o := by
  have hread := (parseWithin_compact h depth).1 (r.nesting_toJson ▸ hd)
  exact ⟨r.held, r.hold_toJson ▸ hread, r.tells_held⟩

theorem parse_text_deep (hd : depth < r.depth) :
    ∃ f, parseWithin depth r.text = .error f ∧ f.cause = .flaw .tooDeep :=
  (parseWithin_compact h depth).2 (r.nesting_toJson ▸ hd)

theorem tells_of_parse (hp : parseWithin depth r.text = .ok (.object o)) : r.Tells o := by
  by_cases hd : r.depth ≤ depth
  · obtain ⟨o', ho, ht⟩ := parse_text h hd
    rw [hp, Except.ok.injEq, Value.object_inj] at ho
    exact ho ▸ ht
  · obtain ⟨f, hf, -⟩ := parse_text_deep h (Nat.lt_of_not_le hd)
    rw [hp] at hf
    cases hf

theorem eq_of_text (h' : r'.Whole) (ht : r'.text = r.text) : r' = r := by
  obtain ⟨o, ho, hr⟩ := parse_text h (Nat.le_max_left r.depth r'.depth)
  obtain ⟨o', ho', hr'⟩ := parse_text h' (Nat.le_max_right r.depth r'.depth)
  rw [ht, ho, Except.ok.injEq, Value.object_inj] at ho'
  exact hr.unique (ho' ▸ hr')

end

end Reply

/-- What an object says of a frame whose run had the given outcome. -/
structure Frame.Reported (f : Frame) (outcome : Outcome) (o : Object) : Prop where
  frameId : o.get? "frame_id" = some (.string f.frameId)
  failed : o.get? "type" = some (.string "error") ↔ ∀ r, outcome ≠ .ok r
  result : ∀ r, outcome = .ok r → o.get? "result" = some (.object r.result)
  message : ∀ e, outcome = .error e → o.get? "message" = some (.string e.message)
  /-- Failures of the pipeline have their code, and no others have one. -/
  code : ∀ c, o.get? "code" = some (.string c) ↔ ∃ e, outcome = .error e ∧ e.code = c

theorem Frame.reported {f : Frame} {outcome : Outcome} {o : Object}
    (h : (f.reply outcome).Tells o) : f.Reported outcome o := by
  have htype := h.type_iff
  cases outcome with
  | ok r =>
    cases h with
    | result frameId result only =>
      refine ⟨frameId, ?_, ?_, nofun, fun c => ?_⟩
      · simp [htype, reply, Reply.isError]
      · rintro _ ⟨⟩
        exact result
      · simp [only "code" (by decide)]
  | error e =>
    cases h with
    | error _ message frameId coded =>
      refine ⟨frameId, ?_, nofun, ?_, fun c => ?_⟩
      · simp [htype, reply, Reply.isError]
      · rintro _ ⟨⟩
        exact message
      · simp [coded, Value.string_inj]
  | panicked p =>
    cases h with
    | error _ _ frameId coded =>
      refine ⟨frameId, ?_, nofun, nofun, fun c => ?_⟩
      · simp [htype, reply, Reply.isError]
      · simp [coded]

theorem Frame.tells_refusal {content : Option String} {r : Reply} {o : Object}
    (hr : read content = .error r) (h : r.Tells o) :
    o.get? "type" = some (.string "error") ∧ o.get? "code" = none := by
  have hcode : ∃ id message, r = .error id message none := by
    cases content with
    | none =>
      cases hr
      exact ⟨_, _, rfl⟩
    | some s =>
      rw [read] at hr
      cases hp : parse s with
      | ok f =>
        rw [hp] at hr
        cases hr
      | error refusal =>
        rw [hp] at hr
        cases hr
        exact ⟨_, _, rfl⟩
  obtain ⟨id, message, rfl⟩ := hcode
  cases h with
  | error type _ _ coded => exact ⟨type, coded⟩

/-- Whoever reads the text of a reply, as deep as it nests, has the reply. -/
structure Reply.Legible (r : Reply) : Prop where
  sent : r.text ≠ ""
  read : ∀ depth, r.depth ≤ depth →
    ∃ o, parseWithin depth r.text = .ok (.object o) ∧ r.Tells o
  tooDeep : ∀ depth, depth < r.depth →
    ∃ f, parseWithin depth r.text = .error f ∧ f.cause = .flaw .tooDeep
  failed : ∀ depth o, parseWithin depth r.text = .ok (.object o) →
    (o.get? "type" = some (.string "error") ↔ r.isError = true)
  outcome : ∀ (f : Frame) outcome, f.reply outcome = r → ∀ depth o,
    parseWithin depth r.text = .ok (.object o) → f.Reported outcome o
  refused : ∀ content, Frame.read content = .error r → ∀ depth o,
    parseWithin depth r.text = .ok (.object o) →
      o.get? "type" = some (.string "error") ∧ o.get? "code" = none
  distinct : ∀ r' : Reply, r'.Whole → r'.text = r.text → r' = r

/-- Replies can be told from their texts, whatever members their payloads have. -/
theorem replies_legible (r : Reply) (h : r.Whole) : r.Legible where
  sent := r.text_ne_empty
  read _ := Reply.parse_text h
  tooDeep _ := Reply.parse_text_deep h
  failed _ _ hp := (Reply.tells_of_parse h hp).type_iff
  outcome _ _ he _ _ hp := Frame.reported (he ▸ Reply.tells_of_parse h hp)
  refused _ hr _ _ hp := Frame.tells_refusal hr (Reply.tells_of_parse h hp)
  distinct _ h' := Reply.eq_of_text h h'

/-- The result of a run whose payload has all members of an error, and another id. -/
def feignedError : RunResult :=
  ⟨((((Object.empty.insert "type" (.string "error")).insert "message" (.string "\u0000")).insert
    "code" (.string "TOOL_FAILED")).insert "frame_id" (.string "other")).insert "n"
    (.int 18446744073709551615), []⟩

theorem replies_legible_feigned :
    let f : Frame := ⟨"f\n\"1", ⟨"p", ["t"], .empty⟩⟩
    (f.reply (.ok feignedError)).Whole ∧ (f.reply (.ok feignedError)).Legible ∧
      ∃ o, Json.parse (f.reply (.ok feignedError)).text = .ok (.object o) ∧
        f.Reported (.ok feignedError) o ∧ ¬ o.get? "type" = some (.string "error") := by
  intro f
  have hw : (f.reply (.ok feignedError)).Whole := by
    have hn : (f.reply (.ok feignedError)).toJson.numbers = [.int 18446744073709551615] := rfl
    intro n hm
    rw [hn, List.mem_singleton] at hm
    exact ⟨_, hm, by decide, by decide⟩
  have h := replies_legible _ hw
  obtain ⟨o, ho, -⟩ := h.read 127 (by decide)
  have hr := h.outcome f _ rfl 127 o ho
  exact ⟨hw, h, o, ho, hr, fun ht => hr.failed.mp ht _ rfl⟩

end ToolPipeline
