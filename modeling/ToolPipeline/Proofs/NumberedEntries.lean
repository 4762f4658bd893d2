import Mathlib.Algebra.GroupWithZero.Nat

/-! Lists whose entries are known by their numbers: what is found, and how much is counted, after
one entry has changed or has come to the end. -/

namespace ToolPipeline

variable {α : Type} {l : List α} {i : Nat} {a : α}

theorem getElem?_set_of_some (h : l[i]? = some a) (b : α) (k : Nat) :
    (l.set i b)[k]? = if k = i then some b else l[k]? := by
  obtain ⟨hi, -⟩ := List.getElem?_eq_some_iff.mp h
  by_cases hk : k = i
  · rw [if_pos hk, hk, List.getElem?_set_self hi]
  · rw [if_neg hk, List.getElem?_set_ne fun he => hk he.symm]

theorem map_getElem?_set {β : Type} (f : α → β) (h : l[i]? = some a) {b : α} (hf : f b = f a)
    (k : Nat) : ((l.set i b)[k]?).map f = (l[k]?).map f := by
  rw [getElem?_set_of_some h]
  split
  · next hk => simp [hk, h, hf]
  · rfl

theorem getElem?_concat (l : List α) (a : α) (k : Nat) :
    (l ++ [a])[k]? = if k = l.length then some a else l[k]? := by
  rcases Nat.lt_trichotomy k l.length with hk | hk | hk
  · rw [if_neg (by omega), List.getElem?_append_left hk]
  · rw [if_pos hk, hk, List.getElem?_concat_length]
  · have hlen : (l ++ [a]).length ≤ k := by
      rw [List.length_append, List.length_singleton]
      omega
    rw [if_neg (by omega), List.getElem?_eq_none hlen, List.getElem?_eq_none (by omega)]

theorem forall_getElem?_set {P : Nat → α → Prop} (h : l[i]? = some a) {b : α} (hb : P i b)
    (hl : ∀ k x, l[k]? = some x → P k x) : ∀ k x, (l.set i b)[k]? = some x → P k x := by
  intro k x hx
  rw [getElem?_set_of_some h] at hx
  split at hx
  · next hk =>
    obtain rfl := Option.some.inj hx
    exact hk ▸ hb
  · exact hl k x hx

theorem forall_getElem?_concat {P : Nat → α → Prop} (ha : P l.length a)
    (hl : ∀ k x, l[k]? = some x → P k x) : ∀ k x, (l ++ [a])[k]? = some x → P k x := by
  intro k x hx
  rw [getElem?_concat] at hx
  split at hx
  · next hk =>
    obtain rfl := Option.some.inj hx
    exact hk ▸ ha
  · exact hl k x hx

theorem countP_cons_toNat (p : α → Bool) (a : α) (l : List α) :
    (a :: l).countP p = (p a).toNat + l.countP p := by
  rw [List.countP_cons]
  cases p a <;> simp [Nat.add_comm]

theorem countP_set (p : α → Bool) (h : l[i]? = some a) (b : α) :
    (l.set i b).countP p + (p a).toNat = l.countP p + (p b).toNat := by
  induction l generalizing i with
  | nil => simp at h
  | cons c l ih =>
    cases i with
    | zero =>
      obtain rfl : c = a := by simpa using h
      simp only [List.set_cons_zero, countP_cons_toNat]
      omega
    | succ i =>
      have hh := ih (by simpa using h)
      simp only [List.set_cons_succ, countP_cons_toNat]
      omega

theorem sum_map_set (f : α → Nat) (h : l[i]? = some a) (b : α) :
    ((l.set i b).map f).sum + f a = (l.map f).sum + f b := by
  induction l generalizing i with
  | nil => simp at h
  | cons c l ih =>
    cases i with
    | zero =>
      obtain rfl : c = a := by simpa using h
      simp only [List.set_cons_zero, List.map_cons, List.sum_cons]
      omega
    | succ i =>
      have hh := ih (by simpa using h)
      simp only [List.set_cons_succ, List.map_cons, List.sum_cons]
      omega

theorem flatMap_zipIdx_congr {α β γ : Type} {l : List α} {m : List β} {f : α × Nat → List γ}
    {g : β × Nat → List γ} (hlen : l.length = m.length)
    (h : ∀ (n : Nat) (hl : n < l.length) (hm : n < m.length), f (l[n], n) = g (m[n], n)) :
    l.zipIdx.flatMap f = m.zipIdx.flatMap g := by
  rw [List.flatMap_def, List.flatMap_def]
  congr 1
  refine List.ext_getElem (by simpa using hlen) fun n hl hm => ?_
  simpa using h n (by simpa using hl) (by simpa using hm)

end ToolPipeline
