import ToolPipeline.Proofs.Json.BrokenTexts
import ToolPipeline.Proofs.Server.FrameGrammar
import ToolPipeline.Server.Rest

/-! Bodies of requests over HTTP: which of them are run, and which of the two codes the others are
answered with. -/

namespace ToolPipeline

open Json

namespace Request

def fields : Fields :=
  .cons "plugin_id" .string (some (.string "")) <|
  .cons "tools" (.list .string) (some (.array [])) <|
  .cons "payload" .object (some Object.empty.toValue) .nil

def fieldNames : List String := ["plugin_id", "tools", "payload"]

/-- The member of that name, or the item at that place if the value is a list. -/
def part? (v : Value) (name : String) (i : Nat) : Option Value :=
  match v.asObject?, v.items? with
  | some o, _ => o.get? name
  | none, some vs => vs[i]?
  | none, none => none

/-- An object or a list that holds the request, with the defaults for what is left out. Other
members and further items count for nothing. -/
structure HeldBy (r : Request) (v : Value) : Prop where
  bracketed : (∃ o, v = .object o) ∨ ∃ vs, v = .array vs
  pluginId : (part? v "plugin_id" 0).getD (.string "") = .string r.pluginId
  tools : (part? v "tools" 1).getD (.array []) = .array (r.tools.map .string)
  payload : (part? v "payload" 2).getD (.object .empty) = .object r.payload

theorem checkers_fields : fields.checkers =
    [⟨"plugin_id", Shape.string.check, some (.string "")⟩,
      ⟨"tools", (Shape.list .string).check, some (.array [])⟩,
      ⟨"payload", Shape.object.check, some Object.empty.toValue⟩] := by
  simp only [fields, Fields.checkers]

theorem readable_fields : fields.Readable where
  plain := ⟨.string, .list .string, .object, trivial⟩
  distinct := by
    rw [checkers_fields]
    decide
  nonempty := by decide

theorem isField_checkers (name : String) :
    isField fields.checkers name = fieldNames.contains name := by
  rw [checkers_fields]
  unfold isField fieldNames
  by_cases h₁ : name = "plugin_id"
  · simp [h₁]
  · by_cases h₂ : name = "tools"
    · simp [h₂]
    · by_cases h₃ : name = "payload"
      · simp [h₃]
      · simp [h₁, h₂, h₃, Ne.symm h₁, Ne.symm h₂, Ne.symm h₃]

theorem checkFieldItems_cons_eq_ok_iff {expected : String} {index : Nat} {read : Object}
    {held : ValueField} {helds : List ValueField} {vs : List Value} {d w : Value}
    (hd : held.default = some d) (hdefault : held.read d = .ok d)
    (hk : ∀ v w, held.read v = .ok w → w = v) :
    checkFieldItems expected index read (held :: helds) vs = .ok w ↔
      held.read (vs[0]?.getD d) = .ok (vs[0]?.getD d) ∧
        checkFieldItems expected (index + 1) (read.insert held.name (vs[0]?.getD d)) helds
          (vs.drop 1) = .ok w := by
  cases vs with
  | nil =>
    rw [checkFieldItems]
    simp only [hd, List.getElem?_nil, Option.getD_none, hdefault, List.drop_nil, true_and]
  | cons v vs =>
    rw [checkFieldItems]
    simp only [List.getElem?_cons_zero, Option.getD_some, List.drop_succ_cons, List.drop_zero]
    cases hr : held.read v with
    | error m => simp [within]
    | ok u =>
      obtain rfl := hk v u hr
      simp [within]

section
variable {v held : Value}

@[simp]
theorem part?_array (vs : List Value) (name : String) (i : Nat) :
    part? (.array vs) name i = vs[i]? := by
  have ho : (Value.array vs).asObject? = none :=
    Value.asObject?_eq_none_iff.mpr fun o he => absurd (congrArg Value.kind he) nofun
  simp only [part?, ho, Value.items?_array]

structure Fits (v : Value) : Prop where
  bracketed : (∃ o, v = .object o) ∨ ∃ vs, v = .array vs
  pluginId : Shape.string.check ((part? v "plugin_id" 0).getD (.string "")) =
    .ok ((part? v "plugin_id" 0).getD (.string ""))
  tools : (Shape.list .string).check ((part? v "tools" 1).getD (.array [])) =
    .ok ((part? v "tools" 1).getD (.array []))
  payload : Shape.object.check ((part? v "payload" 2).getD (.object .empty)) =
    .ok ((part? v "payload" 2).getD (.object .empty))

structure Filled (q : Object) (v : Value) : Prop where
  pluginId : q.get? "plugin_id" = some ((part? v "plugin_id" 0).getD (.string ""))
  tools : q.get? "tools" = some ((part? v "tools" 1).getD (.array []))
  payload : q.get? "payload" = some ((part? v "payload" 2).getD (.object .empty))

theorem check_empty_texts : (Shape.list .string).check (.array []) = .ok (.array []) :=
  Shape.check_texts_eq_ok_iff.mpr ⟨rfl, [], rfl⟩

theorem check_empty_object : Shape.object.check (.object .empty) = .ok (.object .empty) := rfl

theorem check_object (o : Object) :
    shape.check (.object o) = checkMembers fields.checkers o :=
  checkRecord_object "PipelineRequest" fields o

theorem fits_object_iff {o : Object} :
    (∃ held, shape.check (.object o) = .ok held) ↔ Fits (.object o) := by
  have hfits {x : Option Value} {d : Value} {check : Value → Except Misfit Value}
      (hd : check d = .ok d) : (x = none ∧ (some d).isSome = true ∨
        ∃ v, x = some v ∧ check v = .ok v) ↔ check (x.getD d) = .ok (x.getD d) := by
    cases x <;> simp [hd]
  rw [check_object, readable_fields.kept.checkMembers_ok_iff, checkers_fields]
  simp only [List.forall_mem_cons, hfits (rfl : Shape.string.check (.string "") = _),
    hfits check_empty_texts]
  constructor
  · rintro ⟨hp, ht, ho, -⟩
    exact ⟨.inl ⟨o, rfl⟩, hp, ht, (hfits check_empty_object).mp ho⟩
  · rintro ⟨-, hp, ht, ho⟩
    exact ⟨hp, ht, (hfits check_empty_object).mpr ho, nofun⟩

theorem check_array_eq_ok_iff {vs : List Value} :
    shape.check (.array vs) = .ok held ↔ Fits (.array vs) ∧
      held = .object (((Object.empty.insert "plugin_id" (vs[0]?.getD (.string ""))).insert "tools"
        (vs[1]?.getD (.array []))).insert "payload" (vs[2]?.getD (.object .empty))) := by
  have hfits : Fits (.array vs) ↔
      Shape.string.check (vs[0]?.getD (.string "")) = .ok (vs[0]?.getD (.string "")) ∧
      (Shape.list .string).check (vs[1]?.getD (.array [])) = .ok (vs[1]?.getD (.array [])) ∧
      Shape.object.check (vs[2]?.getD (.object .empty)) = .ok (vs[2]?.getD (.object .empty)) := by
    constructor
    · rintro ⟨-, hp, ht, ho⟩
      simp only [part?_array] at hp ht ho
      exact ⟨hp, ht, ho⟩
    · rintro ⟨hp, ht, ho⟩
      exact ⟨.inr ⟨vs, rfl⟩, by simpa only [part?_array] using hp,
        by simpa only [part?_array] using ht, by simpa only [part?_array] using ho⟩
  have harray : shape.check (.array vs) = _ := check_record_array "PipelineRequest" fields vs
  rw [harray, hfits, checkers_fields]
  rw [checkFieldItems_cons_eq_ok_iff rfl rfl (fun v w => Shape.Plain.string.eq_of_check),
    checkFieldItems_cons_eq_ok_iff rfl check_empty_texts
      (fun v w => (Shape.Plain.list .string).eq_of_check),
    checkFieldItems_cons_eq_ok_iff (d := .object .empty) rfl check_empty_object
      (fun v w => Shape.Plain.object.eq_of_check), checkFieldItems]
  simp only [List.getElem?_drop, Except.ok.injEq, and_assoc, eq_comm]

theorem filled_of_check (h : shape.check v = .ok held) :
    Fits v ∧ ∃ q, held = .object q ∧ Filled q v := by
  cases ho : v.asObject? with
  | some o =>
    obtain rfl := Value.asObject?_eq_some_iff.mp ho
    refine ⟨fits_object_iff.mp ⟨held, h⟩, ?_⟩
    rw [check_object] at h
    obtain ⟨q, rfl, hq⟩ := readable_fields.kept.get?_of_checkMembers h
    rw [checkers_fields] at hq
    simp only [List.forall_mem_cons, Option.or_some] at hq
    obtain ⟨hp, ht, hpay, -⟩ := hq
    exact ⟨q, rfl, hp, ht, hpay⟩
  | none =>
    cases hi : v.items? with
    | some vs =>
      obtain rfl := Value.items?_eq_some_iff.mp hi
      obtain ⟨hfits, rfl⟩ := check_array_eq_ok_iff.mp h
      refine ⟨hfits, _, rfl, ?_, ?_, ?_⟩ <;> simp [Object.get?_insert]
    | none =>
      have hobject := Value.asObject?_eq_none_iff.mp ho
      have harray (vs : List Value) : v ≠ .array vs := fun he => by
        rw [he, Value.items?_array] at hi
        cases hi
      exact absurd h (check_record_scalar harray hobject)

theorem ofValue_of_filled {r : Request} {q : Object} (hq : Filled q v)
    (hp : (part? v "plugin_id" 0).getD (.string "") = .string r.pluginId)
    (ht : (part? v "tools" 1).getD (.array []) = .array (r.tools.map .string))
    (ho : (part? v "payload" 2).getD (.object .empty) = .object r.payload) :
    ofValue (.object q) = r := by
  have hplugin : textField q "plugin_id" = r.pluginId :=
    textField_of_get? (hp ▸ hq.pluginId)
  have htools : textsField q "tools" = r.tools := textsField_of_get? (ht ▸ hq.tools)
  have hget : q.get? "payload" = some (.object r.payload) := ho ▸ hq.payload
  have hpayload : objectField q "payload" = r.payload := by
    simp [objectField, hget]
  cases r
  simp only [ofValue, Value.asObject?_object, Option.getD_some, Request.mk.injEq]
  exact ⟨hplugin, htools, hpayload⟩

theorem heldBy_iff {r : Request} :
    r.HeldBy v ↔ ∃ held, shape.check v = .ok held ∧ ofValue held = r := by
  constructor
  · rintro ⟨hb, hp, ht, ho⟩
    have hfits : Fits v := by
      refine ⟨hb, ?_, ?_, ?_⟩
      · rw [hp]
        rfl
      · rw [ht]
        exact Shape.check_texts_eq_ok_iff.mpr ⟨rfl, r.tools, rfl⟩
      · rw [ho]
        rfl
    have hheld : ∃ held, shape.check v = .ok held := by
      rcases hb with ⟨o, rfl⟩ | ⟨vs, rfl⟩
      · exact fits_object_iff.mpr hfits
      · exact ⟨_, check_array_eq_ok_iff.mpr ⟨hfits, rfl⟩⟩
    obtain ⟨held, hheld⟩ := hheld
    obtain ⟨-, q, rfl, hq⟩ := filled_of_check hheld
    exact ⟨_, hheld, ofValue_of_filled hq hp ht ho⟩
  · rintro ⟨held, hheld, rfl⟩
    obtain ⟨hfits, q, rfl, hq⟩ := filled_of_check hheld
    obtain ⟨-, t, hp⟩ := Shape.check_string_eq_ok_iff.mp hfits.pluginId
    obtain ⟨-, ts, ht⟩ := Shape.check_texts_eq_ok_iff.mp hfits.tools
    obtain ⟨payload, ho⟩ : ∃ o, (part? v "payload" 2).getD (.object .empty) = .object o := by
      have hpayload := hfits.payload
      simp only [Shape.check, ite_wrongType_eq_ok_iff, Option.isSome_iff_exists,
        Value.asObject?_eq_some_iff, true_and] at hpayload
      exact hpayload
    rw [ofValue_of_filled (r := ⟨t, ts, payload⟩) hq hp ht ho]
    exact ⟨hfits.bracketed, hp, ht, ho⟩

end

def Overlong (v : Value) : Prop := ∃ vs, v = .array vs ∧ fieldNames.length < vs.length

/-- An object that gives one of the fields twice. -/
def Repeats (s : List Piece) : Prop := ¬ ((namesIn s).filter (fieldNames.contains ·)).Nodup

end Request

namespace Rest

variable {server : Server} {a : Attempt} {r : Http.Request} {w : World} {request : Request}

/-- Nothing has been run, and the answer has that code. -/
structure Declined (server : Server) (a : Attempt) (r : Http.Request) (w : World) (code : String) :
    Prop where
  ended : (post server a r w).ended = none
  world : (post server a r w).world = w
  response : ∃ message, (post server a r w).response = (⟨400, code, message⟩ : ApiError).response

/-- The engine has run that request, and the answer is what came of it. -/
structure Engaged (server : Server) (a : Attempt) (r : Http.Request) (w : World)
    (request : Request) : Prop where
  ended : (post server a r w).ended = some
    (server.engine.run a.names.runId request (options server.config a.token w.now) a.offered w).1
  world : (post server a r w).world =
    (server.engine.run a.names.runId request (options server.config a.token w.now) a.offered w).2
  response : (post server a r w).response = respond a.names.worker
    (server.engine.run a.names.runId request (options server.config a.token w.now) a.offered
      w).1.outcome

theorem engaged_of_readBody
    (h : readBody server.config.maxMessageSize.toNat r = .ok request) :
    Engaged server a r w request := by
  constructor <;> simp only [post, h]

theorem declined_of_readBody {f : BodyFault} {code message : String}
    (h : readBody server.config.maxMessageSize.toNat r = .error f)
    (hf : f.error = ⟨400, code, message⟩) : Declined server a r w code := by
  refine ⟨?_, ?_, message, ?_⟩ <;> simp only [post, h, hf]

theorem readBody_eq {limit : Nat} (hjson : isJsonTyped r = true) (hsize : r.body.length ≤ limit) :
    readBody limit r = readOctets r.body := by
  simp only [readBody, hjson, Bool.not_true, Bool.false_eq_true, if_false, Nat.not_lt.mpr hsize]

theorem readOctets_ok {octets : List UInt8} {v : Value}
    (h : Request.shape.parsePieces (Piece.ofOctets octets) = .ok v) :
    readOctets octets = .ok (Request.ofValue v) := by
  simp only [readOctets, h]

theorem readOctets_error {octets : List UInt8} {f : Failure}
    (h : Request.shape.parsePieces (Piece.ofOctets octets) = .error f) :
    readOctets octets =
      .error (if isMismatch f.cause then .wrongShape f else .malformed f) := by
  simp only [readOctets, h]

/-- What becomes of a body that is typed as JSON and not too large. -/
structure ToldApart (server : Server) (a : Attempt) (r : Http.Request) (w : World) : Prop where
  /-- A well-formed body of the right shape reaches the engine. -/
  engaged : ∀ v request, parsePieces (Piece.ofOctets r.body) = .ok v → Request.HeldBy request v →
    ¬ Request.Repeats (Piece.ofOctets r.body) → ¬ Request.Overlong v →
    Engaged server a r w request
  /-- A well-formed body that holds no request, or gives a field twice, is an invalid pipeline. -/
  misshapen : ∀ v, parsePieces (Piece.ofOctets r.body) = .ok v →
    (∀ request, ¬ Request.HeldBy request v) ∨ Request.Repeats (Piece.ofOctets r.body) →
    Declined server a r w "INVALID_PIPELINE"
  /-- A list that goes on after a request is answered as if it were malformed. -/
  overlong : ∀ v request, parsePieces (Piece.ofOctets r.body) = .ok v → Request.HeldBy request v →
    Request.Overlong v → Declined server a r w "INVALID_REQUEST"
  /-- A value that something follows is malformed if it holds a request. -/
  trailing : ∀ v rest request, readValue depthLimit (Piece.ofOctets r.body) = .ok (v, rest) →
    readEnd rest ≠ .ok () → Request.HeldBy request v →
    ¬ Request.Repeats (Piece.ofOctets r.body) → Declined server a r w "INVALID_REQUEST"
  /-- A value that holds no request is an invalid pipeline, whatever follows it. -/
  forestalled : ∀ v rest, readValue depthLimit (Piece.ofOctets r.body) = .ok (v, rest) →
    (∀ request, ¬ Request.HeldBy request v) ∨ Request.Repeats (Piece.ofOctets r.body) →
    Declined server a r w "INVALID_PIPELINE"
  /-- Every malformed body is refused with one of the two codes, unless it has a member that is no
  field. -/
  malformed : ∀ f, parsePieces (Piece.ofOctets r.body) = .error f →
    Declined server a r w "INVALID_REQUEST" ∨ Declined server a r w "INVALID_PIPELINE" ∨
      ∃ name ∈ namesIn (Piece.ofOctets r.body), name ∉ Request.fieldNames
  /-- A body with a flaw that is met, in whatever is not just passed over, is malformed. It is told
  so if what stands before the flaw fits a request. -/
  broken : ∀ f, readLoosely Request.fields depthLimit (Piece.ofOctets r.body) = .error f →
    (∃ g, parsePieces (Piece.ofOctets r.body) = .error g) ∧
      (Request.shape.FitsBefore depthLimit (Piece.ofOctets r.body) →
        Declined server a r w "INVALID_REQUEST")
  /-- If something before the flaw does not fit, or is a field given twice, the body is an invalid
  pipeline. -/
  mistaken : ∀ f, readLoosely Request.fields depthLimit (Piece.ofOctets r.body) = .error f →
    ¬ Request.shape.FitsBefore depthLimit (Piece.ofOctets r.body) →
    Declined server a r w "INVALID_PIPELINE"
  /-- A flaw in what is passed over is no obstacle to a request. -/
  overlooked : ∀ v rest request,
    readLoosely Request.fields depthLimit (Piece.ofOctets r.body) = .ok (v, rest) →
    readEnd rest = .ok () → Request.HeldBy request v →
    ¬ Request.Repeats (Piece.ofOctets r.body) → ¬ Request.Overlong v →
    Engaged server a r w request
  /-- With such a flaw or without, a body whose fields hold no request is an invalid pipeline. -/
  unheld : ∀ v rest,
    readLoosely Request.fields depthLimit (Piece.ofOctets r.body) = .ok (v, rest) →
    (∀ request, ¬ Request.HeldBy request v) ∨ Request.Repeats (Piece.ofOctets r.body) →
    Declined server a r w "INVALID_PIPELINE"
  /-- With such a flaw or without, a body that goes on after a request is malformed. -/
  extended : ∀ v rest request,
    readLoosely Request.fields depthLimit (Piece.ofOctets r.body) = .ok (v, rest) →
    readEnd rest ≠ .ok () → Request.HeldBy request v →
    ¬ Request.Repeats (Piece.ofOctets r.body) → Declined server a r w "INVALID_REQUEST"

theorem givenOnce_iff {s : List Piece} :
    GivenOnce Request.fields.checkers (namesIn s) ↔ ¬ Request.Repeats s := by
  have hfields : isField Request.fields.checkers = (Request.fieldNames.contains ·) :=
    funext Request.isField_checkers
  rw [GivenOnce, hfields, Request.Repeats, Decidable.not_not]

theorem not_given {s : List Piece} {v : Value}
    (hno : (∀ request, ¬ Request.HeldBy request v) ∨ Request.Repeats s) :
    ¬ ((∃ held, Request.shape.check v = .ok held) ∧
      GivenOnce Request.fields.checkers (namesIn s)) := by
  rintro ⟨⟨held, hc⟩, honce⟩
  rcases hno with hno | hno
  · exact hno _ (Request.heldBy_iff.mpr ⟨held, hc, rfl⟩)
  · exact givenOnce_iff.mp honce hno

section
variable (hjson : isJsonTyped r = true)
  (hsize : r.body.length ≤ server.config.maxMessageSize.toNat)

include hjson hsize

theorem engaged_of_shape {held : Value}
    (h : Request.shape.parsePieces (Piece.ofOctets r.body) = .ok held) :
    Engaged server a r w (Request.ofValue held) :=
  engaged_of_readBody ((readBody_eq hjson hsize).trans (readOctets_ok h))

theorem declined_of_mismatch
    (h : ∃ f, Request.shape.parsePieces (Piece.ofOctets r.body) = .error f ∧
      isMismatch f.cause = true) : Declined server a r w "INVALID_PIPELINE" := by
  obtain ⟨f, hp, hm⟩ := h
  have hread := (readBody_eq hjson hsize).trans (readOctets_error hp)
  rw [if_pos hm] at hread
  exact declined_of_readBody hread rfl

theorem declined_of_flaw
    (h : ∃ f, Request.shape.parsePieces (Piece.ofOctets r.body) = .error f ∧
      isMismatch f.cause = false) : Declined server a r w "INVALID_REQUEST" := by
  obtain ⟨f, hp, hm⟩ := h
  have hread := (readBody_eq hjson hsize).trans (readOctets_error hp)
  rw [hm, if_neg Bool.false_ne_true] at hread
  exact declined_of_readBody hread rfl

theorem declined_of_trailing
    (h : ∃ f, Request.shape.parsePieces (Piece.ofOctets r.body) = .error f ∧
      f.cause = .flaw .trailingCharacters) : Declined server a r w "INVALID_REQUEST" := by
  obtain ⟨f, hp, hm⟩ := h
  exact declined_of_flaw hjson hsize ⟨f, hp, by rw [hm]; rfl⟩

end

/-- Bodies over HTTP that are typed as JSON and not too large are told apart by whether they spell a
value, and by whether that value holds a request. -/
theorem bodies_told_apart (hjson : isJsonTyped r = true)
    (hsize : r.body.length ≤ server.config.maxMessageSize.toNat) : ToldApart server a r w where
  engaged v request hv hheld honce hlong := by
    obtain ⟨held, hc, rfl⟩ := Request.heldBy_iff.mp hheld
    exact engaged_of_shape hjson hsize (Request.readable_fields.parsePieces_of_check hv hc
      (givenOnce_iff.mpr honce) hlong)
  misshapen v hv hno := by
    obtain ⟨rest, hr, -⟩ := readWhole_eq_ok_iff.mp hv
    exact declined_of_mismatch hjson hsize
      (Request.readable_fields.parsePieces_mismatch hr (not_given hno))
  overlong v request hv hheld hlong := by
    obtain ⟨held, hc, -⟩ := Request.heldBy_iff.mp hheld
    exact declined_of_trailing hjson hsize
      (Request.readable_fields.parsePieces_overlong hv hc hlong)
  trailing v rest request hv hend hheld honce := by
    obtain ⟨held, hc, -⟩ := Request.heldBy_iff.mp hheld
    exact declined_of_trailing hjson hsize
      (Request.readable_fields.parsePieces_trailing hv hend hc (givenOnce_iff.mpr honce))
  forestalled v rest hv hno := declined_of_mismatch hjson hsize
    (Request.readable_fields.parsePieces_mismatch hv (not_given hno))
  malformed f hv := by
    cases hp : Request.shape.parsePieces (Piece.ofOctets r.body) with
    | ok held =>
      obtain ⟨name, hname, hno⟩ := Request.readable_fields.mem_namesIn_of_parsePieces hv hp
      refine .inr (.inr ⟨name, hname, fun hmem => ?_⟩)
      rw [Request.isField_checkers] at hno
      simp [hmem] at hno
    | error g =>
      cases hm : isMismatch g.cause with
      | true => exact .inr (.inl (declined_of_mismatch hjson hsize ⟨g, hp, hm⟩))
      | false => exact .inl (declined_of_flaw hjson hsize ⟨g, hp, hm⟩)
  broken f h := ⟨parsePieces_error_of_loose h, fun hfits => declined_of_flaw hjson hsize
    (Request.readable_fields.parsePieces_flawed h hfits)⟩
  mistaken f h hfits := declined_of_mismatch hjson hsize
    (Request.readable_fields.parsePieces_mistaken h hfits)
  overlooked v rest request hv hend hheld honce hlong := by
    obtain ⟨held, hc, rfl⟩ := Request.heldBy_iff.mp hheld
    exact engaged_of_shape hjson hsize (Request.readable_fields.parsePieces_of_loose hv hend hc
      (givenOnce_iff.mpr honce) hlong)
  unheld v rest hv hno := declined_of_mismatch hjson hsize
    (Request.readable_fields.parsePieces_mismatch_of_loose hv (not_given hno))
  extended v rest request hv hend hheld honce := by
    obtain ⟨held, hc, -⟩ := Request.heldBy_iff.mp hheld
    exact declined_of_trailing hjson hsize
      (Request.readable_fields.parsePieces_trailing_of_loose hv hend hc (givenOnce_iff.mpr honce))

def jsonPost (text : String) : Http.Request :=
  ⟨"POST", "/pipeline", [("content-type", "application/json")],
    text.toList.map fun c => UInt8.ofNat c.toNat⟩

/-- A list that holds a request, an object that holds none, a list that something follows, an object
that breaks off, and a list that breaks off after an item that does not fit. -/
theorem five_bodies_told_apart :
    let server : Server := ⟨.new .empty, .default⟩
    let a : Attempt := ⟨[1], ⟨"r", "1"⟩, 0⟩
    Engaged server a (jsonPost "[\"p\",[\"t\"]]") .initial ⟨"p", ["t"], .empty⟩ ∧
      Declined server a (jsonPost "\x7b\"tools\":5\x7d") .initial "INVALID_PIPELINE" ∧
      Declined server a (jsonPost "[] 1") .initial "INVALID_REQUEST" ∧
      Declined server a (jsonPost "\x7bnot json") .initial "INVALID_REQUEST" ∧
      Declined server a (jsonPost "[\"p\",[5") .initial "INVALID_PIPELINE" := by
  intro server a
  have hbare (s : List Piece) (h : namesIn s = []) : ¬ Request.Repeats s := by
    unfold Request.Repeats
    rw [h]
    exact fun hn => hn List.nodup_nil
  have hlist : ToldApart server a (jsonPost "[\"p\",[\"t\"]]") .initial :=
    bodies_told_apart (by decide +kernel) (by decide +kernel)
  have hobject : ToldApart server a (jsonPost "\x7b\"tools\":5\x7d") .initial :=
    bodies_told_apart (by decide +kernel) (by decide +kernel)
  have htrailing : ToldApart server a (jsonPost "[] 1") .initial :=
    bodies_told_apart (by decide +kernel) (by decide +kernel)
  have hbroken : ToldApart server a (jsonPost "\x7bnot json") .initial :=
    bodies_told_apart (by decide +kernel) (by decide +kernel)
  have hmistaken : ToldApart server a (jsonPost "[\"p\",[5") .initial :=
    bodies_told_apart (by decide +kernel) (by decide +kernel)
  refine ⟨?_, ?_, ?_, ?_, ?_⟩
  · refine hlist.engaged (.array [.string "p", .array [.string "t"]]) _ (by rfl)
      ⟨.inr ⟨_, rfl⟩, ?_, ?_, ?_⟩ (hbare _ (by rfl)) ?_
    · rw [Request.part?_array]
      rfl
    · rw [Request.part?_array]
      rfl
    · rw [Request.part?_array]
      rfl
    · rintro ⟨vs, he, hlong⟩
      rw [← Value.array_inj.mp he] at hlong
      exact absurd hlong (by decide)
  · refine hobject.misshapen (.object (Object.empty.insert "tools" (.int 5))) (by rfl)
      (.inl fun request hheld => ?_)
    exact absurd (congrArg Value.kind hheld.tools) nofun
  · refine htrailing.trailing (.array []) [.char ' ', .char '1'] ⟨"", [], .empty⟩ (by rfl) nofun
      ⟨.inr ⟨_, rfl⟩, ?_, ?_, ?_⟩ (hbare _ (by rfl))
    · rw [Request.part?_array]
      rfl
    · rw [Request.part?_array]
      rfl
    · rw [Request.part?_array]
      rfl
  · refine (hbroken.broken _ (by rfl)).2 ?_
    unfold Request.shape Shape.FitsBefore
    exact ⟨trivial, fun key text he => absurd he.symm (Option.some_ne_none _)⟩
  · refine hmistaken.mistaken _ (by rfl) fun hfits => ?_
    unfold Request.shape Shape.FitsBefore at hfits
    have hfive : Shape.string.check (.int 5) = .ok (.int 5) :=
      hfits.2.1 (.int 5) (List.mem_singleton.mpr rfl)
    cases hfive

/-- A body cut off after a field that does not fit is answered as an invalid pipeline, one with half
a character in a member that is no field is run, and a list that goes on is answered as malformed.
-/
theorem malformed_bodies_not_told_apart :
    let server : Server := ⟨.new .empty, .default⟩
    let a : Attempt := ⟨[1], ⟨"r", "1"⟩, 0⟩
    let cut := jsonPost "\x7b\"tools\":5,"
    let halved := jsonPost "\x7b\"x\":\"\\ud800\"\x7d"
    let long := jsonPost "[\"p\",[\"t\"],\x7b\x7d,1]"
    ((∃ f, parsePieces (Piece.ofOctets cut.body) = .error f) ∧
      (post server a cut .initial).response = (⟨400, "INVALID_PIPELINE",
        "Failed to deserialize the JSON body into the target type: tools: " ++
          "invalid type: integer `5`, expected a sequence at line 1 column 10"⟩ :
            ApiError).response) ∧
    ((∃ f, parsePieces (Piece.ofOctets halved.body) = .error f) ∧
      Engaged server a halved .initial ⟨"", [], .empty⟩) ∧
    (∃ v, parsePieces (Piece.ofOctets long.body) = .ok v) ∧
      (post server a long .initial).response = (⟨400, "INVALID_REQUEST",
        "Failed to parse the request body as JSON: trailing characters at line 1 column 15"⟩ :
          ApiError).response := by
  intro server a cut halved long
  have hcut : readBody server.config.maxMessageSize.toNat cut = .error (.wrongShape
      ⟨.mismatch (.wrongType (.integer 5) "a sequence"), [.key "tools"], some ⟨1, 10⟩⟩) :=
    (readBody_eq (by decide +kernel) (by decide +kernel)).trans (by rfl)
  have hlong : readBody server.config.maxMessageSize.toNat long = .error (.malformed
      ⟨.flaw .trailingCharacters, [], some ⟨1, 15⟩⟩) :=
    (readBody_eq (by decide +kernel) (by decide +kernel)).trans (by rfl)
  have hhalved : readBody server.config.maxMessageSize.toNat halved = .ok ⟨"", [], .empty⟩ :=
    (readBody_eq (by decide +kernel) (by decide +kernel)).trans (by rfl)
  refine ⟨⟨⟨_, by rfl⟩, ?_⟩, ⟨⟨_, by rfl⟩, engaged_of_readBody hhalved⟩, ⟨_, by rfl⟩, ?_⟩
  · simp only [post, hcut]
    exact congrArg ApiError.response (by decide +kernel)
  · simp only [post, hlong]
    exact congrArg ApiError.response (by decide +kernel)

end Rest

end ToolPipeline
