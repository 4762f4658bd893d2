import ToolPipeline.Proofs.Json.TypedReading

/-! Reading by a shape where the text spells a value. What fits is read as it stands, up to the same
place, and what does not fit is a mismatch and never a flaw of the grammar. -/

namespace ToolPipeline.Json

/-- What is wrong is the shape and not the grammar. -/
def Misjudged {α : Type} (x : Result α) : Prop := ∃ f, x = .error f ∧ isMismatch f.cause = true

/-- The reader gives that if it fits, and finds a mismatch otherwise. -/
structure Judged {α : Type} (fits : Prop) (x : Result α) (r : α × List Piece) : Prop where
  fit : fits → x = .ok r
  misfit : ¬ fits → Misjudged x

/-- Where the first reading fails, so does the second one, and for the like of its cause. -/
def FailsWith {α β : Type} (x : Result α) (z : Result β) : Prop :=
  ∀ f, x = .error f → ∃ g, z = .error g ∧ isMismatch g.cause = isMismatch f.cause

theorem Misjudged.failsWith {α β : Type} {x : Result α} {z : Result β} (h : Misjudged x)
    (hz : FailsWith x z) : Misjudged z := by
  obtain ⟨f, hx, hm⟩ := h
  obtain ⟨g, hg, hc⟩ := hz f hx
  exact ⟨g, hg, hc.trans hm⟩

section
variable {depth : Nat} {s rest : List Piece} {v : Value}

theorem refuse_misjudged {α : Type} (h : Spelled depth s v rest) (expected : String) :
    Misjudged (refuse expected (skipSpace s) : Result α) := by
  cases h with
  | list hs => exact ⟨_, by rw [hs]; rfl, rfl⟩
  | object hs => exact ⟨_, by rw [hs]; rfl, rfl⟩
  | scalar hlist hobject h =>
    unfold refuse
    split
    · next hs => exact absurd hs (hlist _)
    · next hs => exact absurd hs (hobject _)
    · rw [h]
      exact ⟨_, rfl, rfl⟩

end

theorem judged_items {α : Type} {item : List Piece → Result α} {item' : List Piece → Result α}
    {fits : α → Prop}
    (h : ∀ s v rest, item s = .ok (v, rest) → Judged (fits v) (item' s) (v, rest))
    {budget index : Nat} {read us : List α} {s rest : List Piece}
    (hs : readItemsFrom item budget index read s = .ok (us, rest)) :
    ∃ vs, us = read.reverse ++ vs ∧
      Judged (∀ v ∈ vs, fits v) (readItemsFrom item' budget index read s) (us, rest) := by
  induction budget generalizing index read s with
  | zero =>
    cases hs
    exact ⟨[], (List.append_nil _).symm, fun _ => rfl, fun hn => absurd nofun hn⟩
  | succ budget ih =>
    unfold readItemsFrom at hs ⊢
    split at hs
    · cases hs
    · cases hs
      exact ⟨[], (List.append_nil _).symm, fun _ => rfl, fun hn => absurd nofun hn⟩
    · split at hs
      · cases hs
      · next v next hv =>
        have hj := h _ _ _ hv
        obtain ⟨vs, rfl, hvs⟩ := ih hs
        refine ⟨v :: vs, by simp, fun hfit => ?_, fun hn => ?_⟩
        · obtain ⟨hf, hfs⟩ := List.forall_mem_cons.mp hfit
          simp only [hj.fit hf]
          exact hvs.fit hfs
        · by_cases hf : fits v
          · simp only [hj.fit hf]
            exact hvs.misfit fun hfs => hn (List.forall_mem_cons.mpr ⟨hf, hfs⟩)
          · obtain ⟨f, he, hm⟩ := hj.misfit hf
            simp only [he]
            exact ⟨_, rfl, hm⟩

section
variable {depth : Nat} {s rest : List Piece} {v : Value}

theorem judged_of_refuse {fits : Prop} {expected : String} (h : Spelled depth s v rest)
    (hn : ¬ fits) : Judged fits (refuse expected (skipSpace s)) (v, rest) :=
  ⟨fun hf => absurd hf hn, fun _ => refuse_misjudged h expected⟩

theorem read_object_eq_refuse (h : ∀ tail, skipSpace s ≠ .char '{' :: tail) :
    Shape.object.read depth s = refuse "a map" (skipSpace s) := by
  simp only [Shape.read]
  split
  · next hs => exact absurd hs (h _)
  · next hs => exact absurd hs (h _)
  · rfl

theorem read_string_eq_refuse (h : ∀ tail, skipSpace s ≠ .char '"' :: tail) :
    Shape.string.read depth s = refuse "a string" (skipSpace s) := by
  simp only [Shape.read]

theorem read_boolean_eq_refuse
    (h : ∀ tail, skipSpace s ≠ .char 't' :: tail ∧ skipSpace s ≠ .char 'f' :: tail) :
    Shape.boolean.read depth s = refuse "a boolean" (skipSpace s) := by
  simp only [Shape.read]
  split
  · next hs => exact absurd hs (h _).1
  · next hs => exact absurd hs (h _).2
  · rfl

theorem read_list_eq_refuse {item : Shape} (h : ∀ tail, skipSpace s ≠ .char '[' :: tail) :
    (Shape.list item).read depth s = refuse "a sequence" (skipSpace s) := by
  simp only [Shape.read]
  split
  · next hs => exact absurd hs (h _)
  · next hs => exact absurd hs (h _)
  · rfl

theorem judged_object (h : Spelled depth s v rest) :
    Judged (Shape.object.check v = .ok v) (Shape.object.read depth s) (v, rest) := by
  have hfits : Shape.object.check v = .ok v ↔ ∃ o, v = .object o := by
    simp only [Shape.check, ite_wrongType_eq_ok_iff, Option.isSome_iff_exists,
      Value.asObject?_eq_some_iff, true_and]
  have hs := h
  cases h with
  | object hbrace ho =>
    refine ⟨fun _ => ?_, fun hn => absurd (hfits.mpr ⟨_, rfl⟩) hn⟩
    simp only [Shape.read, hbrace, ho, Except.map]
  | list hbracket =>
    rw [read_object_eq_refuse (by simp [hbracket])]
    refine judged_of_refuse hs fun hf => ?_
    obtain ⟨o, ho⟩ := hfits.mp hf
    cases congrArg Value.kind ho
  | scalar hlist hobject hv =>
    rw [read_object_eq_refuse hobject]
    refine judged_of_refuse hs fun hf => ?_
    obtain ⟨o, ho⟩ := hfits.mp hf
    exact (headed_of_readScalar hv).object o ho

theorem judged_string (h : Spelled depth s v rest) :
    Judged (Shape.string.check v = .ok v) (Shape.string.read depth s) (v, rest) := by
  have hfits : Shape.string.check v = .ok v ↔ ∃ t, v = .string t := by
    simp [Shape.check_string_eq_ok_iff]
  have hs := h
  by_cases hquote : ∃ tail, skipSpace s = .char '"' :: tail
  · obtain ⟨tail, ht⟩ := hquote
    cases h with
    | list hbracket => simp [ht] at hbracket
    | object hbrace => simp [ht] at hbrace
    | scalar _ _ hv =>
      rw [ht] at hv
      obtain ⟨⟨t, after⟩, hr, he⟩ := map_eq_ok_iff.mp hv
      cases he
      refine ⟨fun _ => ?_, fun hn => absurd (hfits.mpr ⟨_, rfl⟩) hn⟩
      simp only [Shape.read, ht, hr, Except.map]
  · rw [read_string_eq_refuse fun tail ht => hquote ⟨tail, ht⟩]
    refine judged_of_refuse hs fun hf => ?_
    obtain ⟨t, ht⟩ := hfits.mp hf
    cases h with
    | list | object => cases congrArg Value.kind ht
    | scalar _ _ hv => exact hquote ((headed_of_readScalar hv).string t ht)

theorem judged_boolean (h : Spelled depth s v rest) :
    Judged (Shape.boolean.check v = .ok v) (Shape.boolean.read depth s) (v, rest) := by
  have hfits : Shape.boolean.check v = .ok v ↔ ∃ b, v = .bool b := by
    simp [Shape.check_boolean_eq_ok_iff]
  have hs := h
  by_cases hword : ∃ tail, skipSpace s = .char 't' :: tail ∨ skipSpace s = .char 'f' :: tail
  · obtain ⟨tail, ht⟩ := hword
    cases h with
    | list hbracket => simp [hbracket] at ht
    | object hbrace => simp [hbrace] at ht
    | scalar _ _ hv =>
      rcases ht with ht | ht <;>
      · rw [ht] at hv
        obtain ⟨after, hr, he⟩ := map_eq_ok_iff.mp hv
        cases he
        refine ⟨fun _ => ?_, fun hn => absurd (hfits.mpr ⟨_, rfl⟩) hn⟩
        simp only [Shape.read, ht, hr, Except.map]
  · have hother (tail : List Piece) :
        skipSpace s ≠ .char 't' :: tail ∧ skipSpace s ≠ .char 'f' :: tail :=
      ⟨fun ht => hword ⟨tail, .inl ht⟩, fun hf => hword ⟨tail, .inr hf⟩⟩
    rw [read_boolean_eq_refuse hother]
    refine judged_of_refuse hs fun hf => ?_
    obtain ⟨b, hb⟩ := hfits.mp hf
    cases h with
    | list | object => cases congrArg Value.kind hb
    | scalar _ _ hv => exact hword ((headed_of_readScalar hv).bool b hb)

theorem judged_list {item : Shape} (hkeeps : ∀ v w, item.check v = .ok w → w = v)
    (hitem : ∀ depth s v rest, readValue depth s = .ok (v, rest) →
      Judged (item.check v = .ok v) (item.read depth s) (v, rest))
    (h : Spelled depth s v rest) :
    Judged ((Shape.list item).check v = .ok v) ((Shape.list item).read depth s) (v, rest) := by
  have hfits : (Shape.list item).check v = .ok v ↔
      ∃ vs, v = .array vs ∧ ∀ u ∈ vs, item.check u = .ok u := by
    simp [Shape.check_list_eq_ok_iff hkeeps]
  have hs := h
  cases h with
  | @list depth _ tail _ vs hbracket hi =>
    obtain ⟨_, rfl, hj⟩ := judged_items (hitem depth) hi
    have hvs : (Shape.list item).check (.array vs) = .ok (.array vs) ↔
        ∀ u ∈ vs, item.check u = .ok u := by
      rw [hfits]
      constructor
      · rintro ⟨us, he, hu⟩
        exact Value.array_inj.mp he ▸ hu
      · exact fun hu => ⟨vs, rfl, hu⟩
    refine ⟨fun hf => ?_, fun hn => ?_⟩
    · have hr := hj.fit (hvs.mp hf)
      simp only [Shape.read, hbracket]
      exact map_eq_ok_iff.mpr ⟨_, hr, rfl⟩
    · obtain ⟨f, hr, hm⟩ := hj.misfit fun hf => hn (hvs.mpr hf)
      refine ⟨f, ?_, hm⟩
      simp only [Shape.read, hbracket, readItems]
      rw [hr]
      rfl
  | object hbrace =>
    rw [read_list_eq_refuse (by simp [hbrace])]
    refine judged_of_refuse hs fun hf => ?_
    obtain ⟨vs, he, -⟩ := hfits.mp hf
    cases congrArg Value.kind he
  | scalar hlist hobject hv =>
    rw [read_list_eq_refuse hlist]
    refine judged_of_refuse hs fun hf => ?_
    obtain ⟨vs, he, -⟩ := hfits.mp hf
    exact (headed_of_readScalar hv).list vs he

theorem Shape.Plain.judged {shape : Shape} (hp : shape.Plain)
    (h : readValue depth s = .ok (v, rest)) :
    Judged (shape.check v = .ok v) (shape.read depth s) (v, rest) := by
  induction hp generalizing depth s v rest with
  | any => exact ⟨fun _ => h, fun hn => absurd rfl hn⟩
  | object => exact judged_object (spelled_of_readValue h)
  | string => exact judged_string (spelled_of_readValue h)
  | boolean => exact judged_boolean (spelled_of_readValue h)
  | list hp ih =>
    exact judged_list (fun v w => hp.eq_of_check) (fun depth s v rest => ih)
      (spelled_of_readValue h)

end

end ToolPipeline.Json
