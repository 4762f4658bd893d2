import ToolPipeline.Proofs.NumberedEntries

/-! Lists that are put together from parts, each of which keeps its order. -/

namespace ToolPipeline

/-- Every entry comes from the head of one of the parts, until no part has any left. -/
inductive Interleaving {α : Type} : (parts : List (List α)) → (merged : List α) → Prop
  | done {parts : List (List α)} (h : ∀ part ∈ parts, part = []) : Interleaving parts []
  | next {parts : List (List α)} {i : Nat} {a : α} {rest merged : List α}
      (h : parts[i]? = some (a :: rest)) (later : Interleaving (parts.set i rest) merged) :
      Interleaving parts (a :: merged)

namespace Interleaving

variable {α : Type} {parts : List (List α)} {merged part : List α} {i : Nat}

theorem single (h : parts[i]? = some []) (hp : ∀ part ∈ parts, part = []) (new : List α) :
    Interleaving (parts.set i new) new := by
  induction new generalizing parts with
  | nil =>
    obtain ⟨hi, he⟩ := List.getElem?_eq_some_iff.mp h
    have hset := List.set_getElem_self hi
    rw [he] at hset
    rw [hset]
    exact .done hp
  | cons a new ih =>
    have hhead : (parts.set i (a :: new))[i]? = some (a :: new) := by
      rw [getElem?_set_of_some h, if_pos rfl]
    refine .next hhead ?_
    rw [List.set_set]
    exact ih h hp

theorem append (hm : Interleaving parts merged) (h : parts[i]? = some part) (new : List α) :
    Interleaving (parts.set i (part ++ new)) (merged ++ new) := by
  induction hm generalizing part with
  | done hp =>
    obtain rfl := hp part (List.mem_of_getElem? h)
    exact single h hp new
  | @next parts k a rest merged hk later ih =>
    by_cases hki : k = i
    · subst hki
      obtain rfl : a :: rest = part := Option.some.inj (hk.symm.trans h)
      have hrest : (parts.set k rest)[k]? = some rest := by
        rw [getElem?_set_of_some hk, if_pos rfl]
      have hh := ih hrest
      rw [List.set_set] at hh
      have hhead : (parts.set k (a :: rest ++ new))[k]? = some (a :: (rest ++ new)) := by
        rw [getElem?_set_of_some hk, if_pos rfl, List.cons_append]
      refine .next hhead ?_
      rw [List.set_set]
      exact hh
    · have hpart : (parts.set k rest)[i]? = some part := by
        rw [getElem?_set_of_some hk, if_neg (Ne.symm hki), h]
      have hh := ih hpart
      rw [List.set_comm _ _ hki] at hh
      have hhead : (parts.set i (part ++ new))[k]? = some (a :: rest) := by
        rw [getElem?_set_of_some h, if_neg hki, hk]
      exact .next hhead hh

/-- If one part alone has the entries of a kind, these are that part. -/
theorem filter_eq (hm : Interleaving parts merged) {P : α → Bool} (h : parts[i]? = some part)
    (hP : ∀ k l, parts[k]? = some l → ∀ a ∈ l, (P a = true ↔ k = i)) :
    merged.filter P = part := by
  induction hm generalizing part with
  | done hp => exact (hp part (List.mem_of_getElem? h)).symm
  | @next parts k a rest merged hk later ih =>
    have ha : P a = true ↔ k = i := hP k _ hk a List.mem_cons_self
    have hset (l : Nat) (m : List α) (hl : (parts.set k rest)[l]? = some m) :
        ∀ b ∈ m, (P b = true ↔ l = i) :=
      forall_getElem?_set (P := fun l m => ∀ b ∈ m, (P b = true ↔ l = i)) hk
        (fun b hb => hP k _ hk b (List.mem_cons_of_mem _ hb)) (fun l m hl => hP l m hl) l m hl
    by_cases hki : k = i
    · subst hki
      obtain rfl : a :: rest = part := Option.some.inj (hk.symm.trans h)
      have hrest : (parts.set k rest)[k]? = some rest := by
        rw [getElem?_set_of_some hk, if_pos rfl]
      rw [List.filter_cons_of_pos (ha.mpr rfl), ih hrest hset]
    · have hpart : (parts.set k rest)[i]? = some part := by
        rw [getElem?_set_of_some hk, if_neg (Ne.symm hki), h]
      rw [List.filter_cons_of_neg (fun hp => hki (ha.mp hp)), ih hpart hset]

end Interleaving

end ToolPipeline
