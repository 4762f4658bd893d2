import ToolPipeline.Json.Shape
import ToolPipeline.Proofs.Success
import ToolPipeline.Proofs.Json.Members

/-! Shapes without records. A held value of such a shape stays as it is. -/

namespace ToolPipeline.Json

/-- Shapes that leave nothing out and fill nothing in. -/
inductive Shape.Plain : Shape → Prop where
  | any : Plain .any
  | object : Plain .object
  | string : Plain .string
  | boolean : Plain .boolean
  | list {item : Shape} : Plain item → Plain (.list item)

theorem within_eq_ok_iff {α : Type} {step : Step} {e : Except Misfit α} {a : α} :
    within step e = .ok a ↔ e = .ok a := by
  cases e <;> simp [within]

theorem wrongType_ne_ok {α : Type} {v : Value} {expected : String} {a : α} :
    wrongType v expected ≠ .ok a := by
  simp [wrongType, misfit]

theorem ite_wrongType_eq_ok_iff {p : Prop} [Decidable p] {v w : Value} {expected : String} :
    (if p then .ok v else wrongType v expected) = .ok w ↔ w = v ∧ p := by
  by_cases hp : p
  · simp [hp, eq_comm]
  · simpa [hp] using wrongType_ne_ok

theorem mapM_within_eq_ok_iff {f : Value → Except Misfit Value} {vs ws : List Value}
    (hf : ∀ v ∈ vs, ∀ w, f v = .ok w → w = v) {n : Nat} :
    (vs.zipIdx n).mapM (fun (v, i) => within (.index i) (f v)) = .ok ws ↔
      ws = vs ∧ ∀ v ∈ vs, f v = .ok v := by
  induction vs generalizing ws n with
  | nil => simp [pure, Except.pure, eq_comm]
  | cons v vs ih =>
    obtain ⟨hv, hvs⟩ := List.forall_mem_cons.mp hf
    simp only [List.zipIdx_cons, List.mapM_cons, List.forall_mem_cons, bind_eq_ok_iff,
      within_eq_ok_iff, ih hvs, pure, Except.pure, Except.ok.injEq]
    constructor
    · rintro ⟨w, hw, us, ⟨rfl, hs⟩, rfl⟩
      have hh := hv w hw
      subst hh
      exact ⟨rfl, hw, hs⟩
    · rintro ⟨rfl, hw, hs⟩
      exact ⟨v, hw, vs, ⟨rfl, hs⟩, rfl⟩

theorem Shape.check_list_eq_ok_iff {item : Shape} {v w : Value}
    (hf : ∀ v w, item.check v = .ok w → w = v) :
    (Shape.list item).check v = .ok w ↔
      w = v ∧ ∃ vs, v = .array vs ∧ ∀ u ∈ vs, item.check u = .ok u := by
  simp only [Shape.check]
  cases hv : v.items? with
  | none =>
    have hn (vs : List Value) : v ≠ .array vs := by
      rintro rfl
      simp [Value.items?_array] at hv
    simp [wrongType_ne_ok, hn]
  | some vs =>
    obtain rfl := Value.items?_eq_some_iff.mp hv
    simp only [map_eq_ok_iff, mapM_within_eq_ok_iff fun v _ => hf v, Value.array_inj]
    constructor
    · rintro ⟨us, ⟨rfl, hs⟩, rfl⟩
      exact ⟨rfl, us, rfl, hs⟩
    · rintro ⟨rfl, us, rfl, hs⟩
      exact ⟨vs, ⟨rfl, hs⟩, rfl⟩

theorem Shape.Plain.eq_of_check {shape : Shape} (h : shape.Plain) {v w : Value}
    (hc : shape.check v = .ok w) : w = v := by
  induction h generalizing v w with
  | any => simpa [Shape.check, eq_comm] using hc
  | object | string | boolean =>
    simp only [Shape.check, ite_wrongType_eq_ok_iff] at hc
    exact hc.1
  | list _ ih => exact ((Shape.check_list_eq_ok_iff fun _ _ => ih).mp hc).1

theorem Shape.check_string_eq_ok_iff {v w : Value} :
    Shape.string.check v = .ok w ↔ w = v ∧ ∃ s, v = .string s := by
  simp [Shape.check, ite_wrongType_eq_ok_iff, Option.isSome_iff_exists, Value.asString?_eq_some_iff]

theorem Shape.check_boolean_eq_ok_iff {v w : Value} :
    Shape.boolean.check v = .ok w ↔ w = v ∧ ∃ b, v = .bool b := by
  simp [Shape.check, ite_wrongType_eq_ok_iff, Option.isSome_iff_exists, Value.asBool?_eq_some_iff]

theorem naturalMismatch_eq_ok_iff {n : Number} {name : String} {most : Nat} {w : Value} :
    naturalMismatch n name most = .ok w ↔ ∃ k : Nat, k ≤ most ∧ n = .int k ∧ w = .int k := by
  unfold naturalMismatch
  cases n with
  | float x => simp
  | int i =>
    simp only [Number.int.injEq]
    split
    · next hi =>
      rw [Except.ok.injEq]
      constructor
      · rintro rfl
        exact ⟨i.toNat, by omega, by omega, congrArg Value.int (by omega)⟩
      · rintro ⟨k, -, rfl, rfl⟩
        rfl
    · next hi =>
      refine iff_of_false (by simp) ?_
      rintro ⟨k, hk, rfl, -⟩
      omega

theorem Shape.check_natural_eq_ok_iff {name : String} {most : Nat} {v w : Value} :
    (Shape.natural name most).check v = .ok w ↔ w = v ∧ ∃ k : Nat, k ≤ most ∧ v = .int k := by
  have hnumber (n : Number) : v.json = .number n ↔ v = .number n :=
    ⟨fun h => Value.ext_json h, fun h => h ▸ rfl⟩
  have hint (k : Nat) : v = .int k ↔ v.json = .number (.int k) := (hnumber _).symm
  simp only [Shape.check]
  split
  · next n hn =>
    obtain rfl := (hnumber n).mp hn
    have hk (k : Nat) : Value.number n = .int k ↔ n = .int k := by
      rw [hint]
      exact ⟨fun h => Json.number.inj h, fun h => h ▸ rfl⟩
    cases hm : naturalMismatch n name most with
    | error m =>
      refine iff_of_false (by simp [misfit]) ?_
      rintro ⟨-, k, hle, he⟩
      have hok : naturalMismatch n name most = .ok (.int k) :=
        naturalMismatch_eq_ok_iff.mpr ⟨k, hle, (hk k).mp he, rfl⟩
      rw [hm] at hok
      cases hok
    | ok u =>
      obtain ⟨k, hle, rfl, rfl⟩ := naturalMismatch_eq_ok_iff.mp hm
      rw [Except.ok.injEq]
      constructor
      · rintro rfl
        exact ⟨rfl, k, hle, rfl⟩
      · rintro ⟨rfl, -⟩
        rfl
  · next hn =>
    refine iff_of_false wrongType_ne_ok ?_
    rintro ⟨-, k, -, rfl⟩
    exact hn _ rfl

theorem eq_map_string_iff {vs : List Value} :
    (∃ ts : List String, vs = ts.map .string) ↔ ∀ v ∈ vs, ∃ t, v = .string t := by
  constructor
  · rintro ⟨ts, rfl⟩ v hv
    obtain ⟨t, -, rfl⟩ := List.mem_map.mp hv
    exact ⟨t, rfl⟩
  · intro h
    induction vs with
    | nil => exact ⟨[], rfl⟩
    | cons v vs ih =>
      obtain ⟨⟨t, rfl⟩, hs⟩ := List.forall_mem_cons.mp h
      obtain ⟨ts, rfl⟩ := ih hs
      exact ⟨t :: ts, rfl⟩

theorem Shape.check_texts_eq_ok_iff {v w : Value} :
    (Shape.list .string).check v = .ok w ↔
      w = v ∧ ∃ ts : List String, v = .array (ts.map .string) := by
  rw [Shape.check_list_eq_ok_iff fun v w => Shape.Plain.string.eq_of_check]
  simp only [Shape.check_string_eq_ok_iff, true_and, ← eq_map_string_iff]
  refine and_congr_right fun _ => ⟨?_, ?_⟩
  · rintro ⟨vs, rfl, ts, rfl⟩
    exact ⟨ts, rfl⟩
  · rintro ⟨ts, rfl⟩
    exact ⟨_, rfl, ts, rfl⟩

end ToolPipeline.Json
