import Mathlib.Data.List.Induction
import Mathlib.Data.List.Nodup
import ToolPipeline.Proofs.NamedEntries

/-! Entries that are put in their places one after the other. The last one under a name stays, and
under names that differ the order makes no difference. -/

namespace ToolPipeline

section
variable {α : Type} {name key : String} {a : α} {l entries m : List (String × α)}

theorem mem_names_insertNamed :
    key ∈ (insertNamed name a l).map Prod.fst ↔ key = name ∨ key ∈ l.map Prod.fst := by
  induction l with
  | nil => simp [insertNamed]
  | cons head rest ih =>
    obtain ⟨n, b⟩ := head
    unfold insertNamed
    split
    · simp
    · split
      · next he => simp [he]
      · rw [List.map_cons, List.mem_cons, ih, List.map_cons, List.mem_cons]
        exact or_left_comm

/-- The entries in increasing order of their names; of several under one name the last one stays. -/
def entered (entries : List (String × α)) : List (String × α) :=
  entries.foldl (fun l e => insertNamed e.1 e.2 l) []

def lastUnder? (entries : List (String × α)) (name : String) : Option α :=
  entries.reverse.lookup name

theorem entered_append (entries : List (String × α)) (name : String) (a : α) :
    entered (entries ++ [(name, a)]) = insertNamed name a (entered entries) := by
  rw [entered, List.foldl_append]
  rfl

theorem lastUnder?_append (entries : List (String × α)) (name : String) (a : α) (key : String) :
    lastUnder? (entries ++ [(name, a)]) key =
      if key = name then some a else lastUnder? entries key := by
  rw [lastUnder?, List.reverse_append]
  exact lookup_cons_ite key name a entries.reverse

theorem lookup_entered (entries : List (String × α)) (key : String) :
    (entered entries).lookup key = lastUnder? entries key := by
  induction entries using List.reverseRecOn with
  | nil => rfl
  | append_singleton entries e ih =>
    obtain ⟨name, a⟩ := e
    rw [entered_append, lookup_insertNamed, lastUnder?_append, ih]

theorem pairwise_entered (entries : List (String × α)) :
    ((entered entries).map Prod.fst).Pairwise (· < ·) := by
  induction entries using List.reverseRecOn with
  | nil => exact List.Pairwise.nil
  | append_singleton entries e ih =>
    rw [entered_append]
    exact pairwise_insertNamed ih

theorem mem_names_entered : key ∈ (entered entries).map Prod.fst ↔ key ∈ entries.map Prod.fst := by
  induction entries using List.reverseRecOn with
  | nil => rfl
  | append_singleton entries e ih =>
    rw [entered_append, mem_names_insertNamed, ih, List.map_append, List.mem_append, or_comm]
    simp

theorem mem_entered : (key, a) ∈ entered entries ↔ lastUnder? entries key = some a := by
  rw [mem_iff_lookup (pairwise_entered entries), lookup_entered]

theorem mem_of_lastUnder? (h : lastUnder? entries key = some a) : (key, a) ∈ entries := by
  obtain ⟨before, after, he, -⟩ := List.lookup_eq_some_iff.mp h
  rw [← List.mem_reverse, he]
  simp

theorem isSome_lastUnder? : (lastUnder? entries key).isSome ↔ key ∈ entries.map Prod.fst := by
  rw [← mem_names_entered, Option.isSome_iff_exists, List.mem_map]
  constructor
  · rintro ⟨a, h⟩
    exact ⟨(key, a), mem_entered.mpr h, rfl⟩
  · rintro ⟨⟨key, a⟩, h, rfl⟩
    exact ⟨a, mem_entered.mp h⟩

theorem lastUnder?_perm (hn : (entries.map Prod.fst).Nodup) (h : entries.Perm m) (key : String) :
    lastUnder? m key = lastUnder? entries key := by
  have hlast {l : List (String × α)} (hl : (l.map Prod.fst).Nodup) (a : α) :
      lastUnder? l key = some a ↔ (key, a) ∈ l := by
    refine ⟨mem_of_lastUnder?, fun hm => ?_⟩
    obtain ⟨b, hb⟩ := Option.isSome_iff_exists.mp
      (isSome_lastUnder?.mpr (List.mem_map_of_mem (f := Prod.fst) hm))
    rw [hb, Option.some.injEq]
    exact (Prod.mk.inj (List.inj_on_of_nodup_map hl (mem_of_lastUnder? hb) hm rfl)).2
  refine Option.ext fun a => ?_
  have hm := (h.map Prod.fst).nodup_iff.mp hn
  rw [hlast hm, hlast hn, h.mem_iff]

theorem lastUnder?_of_nodup (hn : (entries.map Prod.fst).Nodup) (key : String) :
    lastUnder? entries key = entries.lookup key := by
  rw [← lastUnder?_perm hn (List.reverse_perm entries).symm, lastUnder?, List.reverse_reverse]

theorem lookup_perm (hn : (entries.map Prod.fst).Nodup) (h : entries.Perm m) (key : String) :
    m.lookup key = entries.lookup key := by
  have hm := (h.map Prod.fst).nodup_iff.mp hn
  rw [← lastUnder?_of_nodup hn, ← lastUnder?_of_nodup hm, lastUnder?_perm hn h]

theorem entered_perm (hn : (entries.map Prod.fst).Nodup) (h : entries.Perm m) :
    entered m = entered entries := by
  refine eq_of_lookup (pairwise_entered m) (pairwise_entered entries) fun key => ?_
  rw [lookup_entered, lookup_entered, lastUnder?_perm hn h]

end

end ToolPipeline
