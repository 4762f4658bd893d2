import ToolPipeline.Tool.Plugin

/-! Entries under names in increasing order: what is found under a name after an insertion, and that
the entries are known once it is known what is found under every name. -/

namespace ToolPipeline

section
variable {α : Type} {key : String} {a : α} {l m : List (String × α)}

theorem lookup_cons_ite (key name : String) (a : α) (l : List (String × α)) :
    ((name, a) :: l).lookup key = if key = name then some a else l.lookup key := by
  by_cases h : key = name
  · simp [h]
  · simp [List.lookup_cons, h, beq_false_of_ne h]

theorem lookup_map_snd {β : Type} (f : α → β) (l : List (String × α)) (key : String) :
    (l.map fun m => (m.1, f m.2)).lookup key = (l.lookup key).map f := by
  induction l with
  | nil => rfl
  | cons m rest ih =>
    rw [List.map_cons, lookup_cons_ite, lookup_cons_ite, ih]
    split <;> rfl

theorem lookup_insertNamed (key name : String) (a : α) (l : List (String × α)) :
    (insertNamed name a l).lookup key = if key = name then some a else l.lookup key := by
  induction l with
  | nil => simp only [insertNamed, lookup_cons_ite]
  | cons head rest ih =>
    obtain ⟨n, b⟩ := head
    unfold insertNamed
    split
    · rw [lookup_cons_ite]
    · split
      · next he =>
        subst he
        by_cases h : key = name <;> simp [lookup_cons_ite, h]
      · next hne =>
        by_cases h : key = n
        · have hn : key ≠ name := fun hk => hne (hk.symm.trans h)
          simp [h, Ne.symm hne]
        · simp only [lookup_cons_ite, h, if_false, ih]

theorem lookup_filter_ne (name key : String) (l : List (String × α)) :
    (l.filter (·.1 != name)).lookup key = if key = name then none else l.lookup key := by
  induction l with
  | nil => simp
  | cons head rest ih =>
    obtain ⟨n, a⟩ := head
    by_cases hn : n = name
    · rw [List.filter_cons_of_neg (by simp [hn]), ih, lookup_cons_ite, hn]
      by_cases h : key = name <;> simp [h]
    · rw [List.filter_cons_of_pos (by simp [hn]), lookup_cons_ite, lookup_cons_ite, ih]
      by_cases h : key = name
      · simp [h, Ne.symm hn]
      · simp [h]

theorem mem_names_of_lookup (h : l.lookup key = some a) : key ∈ l.map Prod.fst := by
  obtain ⟨before, after, rfl, -⟩ := List.lookup_eq_some_iff.mp h
  simp

theorem lookup_eq_none_iff : l.lookup key = none ↔ key ∉ l.map Prod.fst := by
  induction l with
  | nil => simp
  | cons m rest ih =>
    rw [lookup_cons_ite, List.map_cons, List.mem_cons, not_or, ← ih]
    by_cases h : key = m.1 <;> simp [h]

theorem lookup_of_count_le_one (h : (l.map Prod.fst).count key ≤ 1) (hm : (key, a) ∈ l) :
    l.lookup key = some a := by
  induction l with
  | nil => cases hm
  | cons m rest ih =>
    rw [List.map_cons, List.count_cons] at h
    rw [lookup_cons_ite]
    rcases List.mem_cons.mp hm with rfl | hrest
    · rw [if_pos rfl]
    · have hin : 0 < (rest.map Prod.fst).count key :=
        List.count_pos_iff.mpr (List.mem_map_of_mem (f := Prod.fst) hrest)
      have hne : key ≠ m.1 := by
        rintro rfl
        rw [beq_self_eq_true, if_pos rfl] at h
        omega
      rw [if_neg hne]
      exact ih (by omega) hrest

theorem lookup_eq_none_of_lt (h : ∀ name ∈ l.map Prod.fst, key < name) : l.lookup key = none := by
  cases hl : l.lookup key with
  | none => rfl
  | some a => exact absurd (h key (mem_names_of_lookup hl)) (String.lt_irrefl key)

theorem mem_iff_lookup (hl : (l.map Prod.fst).Pairwise (· < ·)) :
    (key, a) ∈ l ↔ l.lookup key = some a := by
  induction l with
  | nil => simp
  | cons head rest ih =>
    obtain ⟨n, b⟩ := head
    simp only [List.map_cons, List.pairwise_cons] at hl
    rw [List.mem_cons, lookup_cons_ite, ih hl.2]
    by_cases h : key = n
    · simp [h, lookup_eq_none_of_lt hl.1, eq_comm]
    · simp [h]

/-- Two lists in increasing order of names are equal if the same is found in them. -/
theorem eq_of_lookup (hl : (l.map Prod.fst).Pairwise (· < ·))
    (hm : (m.map Prod.fst).Pairwise (· < ·)) (h : ∀ key, l.lookup key = m.lookup key) :
    l = m := by
  induction l generalizing m with
  | nil =>
    cases m with
    | nil => rfl
    | cons head rest =>
      obtain ⟨n, a⟩ := head
      simpa using h n
  | cons head rest ih =>
    obtain ⟨n, a⟩ := head
    cases m with
    | nil => simpa using h n
    | cons head' rest' =>
      obtain ⟨n', a'⟩ := head'
      simp only [List.map_cons, List.pairwise_cons] at hl hm
      simp only [lookup_cons_ite] at h
      have hn : n = n' := by
        refine Decidable.byContradiction fun hne => String.lt_asymm ?_ ?_ (a := n) (b := n')
        · have hh : rest.lookup n' = some a' := by simpa [Ne.symm hne] using h n'
          exact hl.1 n' (mem_names_of_lookup hh)
        · have hh : some a = rest'.lookup n := by simpa [hne] using h n
          exact hm.1 n (mem_names_of_lookup hh.symm)
      subst hn
      have ha : a = a' := by simpa using h n
      subst ha
      have hr : rest = rest' := by
        refine ih hl.2 hm.2 fun key => ?_
        by_cases hk : key = n
        · rw [hk, lookup_eq_none_of_lt hl.1, lookup_eq_none_of_lt hm.1]
        · simpa [hk] using h key
      rw [hr]

end

end ToolPipeline
