import ToolPipeline.Proofs.Json.Members
import ToolPipeline.Settings.Layer

/-! Values laid over each other. Under every key the upper value stays, except that two objects are
merged; in sections this goes on under the keys of the section. -/

namespace ToolPipeline

open Json

/-- Values that are equal, or are both objects. -/
def Json.Value.Alike (v w : Value) : Prop :=
  v = w ∨ (∃ o, v = .object o) ∧ ∃ o, w = .object o

theorem Json.Value.Alike.trans {u v w : Value} (h : u.Alike v) (h' : v.Alike w) : u.Alike w := by
  rcases h with rfl | ⟨hu, o, rfl⟩
  · exact h'
  · rcases h' with rfl | ⟨-, hw⟩
    · exact .inr ⟨hu, o, rfl⟩
    · exact .inr ⟨hu, hw⟩

namespace Datum

section
variable {α : Type} {l : List (String × α)}

theorem lookup_put (key : String) (a : α) (l : List (String × α)) (name : String) :
    (put key a l).lookup name = if name = key then some a else l.lookup name := by
  induction l with
  | nil => simp only [put, lookup_cons_ite]
  | cons m rest ih =>
    obtain ⟨k, b⟩ := m
    unfold put
    split
    · next hk =>
      subst hk
      by_cases hn : name = k <;> simp [lookup_cons_ite, hn]
    · next hk =>
      by_cases hn : name = k
      · simp [hn, hk]
      · simp only [lookup_cons_ite, hn, if_false, ih]

theorem put_names (key : String) (a : α) (l : List (String × α)) :
    (put key a l).map Prod.fst =
      if key ∈ l.map Prod.fst then l.map Prod.fst else l.map Prod.fst ++ [key] := by
  induction l with
  | nil => simp [put]
  | cons m rest ih =>
    obtain ⟨k, b⟩ := m
    unfold put
    by_cases hk : k = key
    · simp [hk]
    · rw [if_neg hk, List.map_cons, ih, List.map_cons]
      by_cases hr : key ∈ rest.map Prod.fst
      · rw [if_pos hr, if_pos (List.mem_cons_of_mem _ hr)]
      · rw [if_neg hr, if_neg (by simpa [Ne.symm hk] using hr), List.cons_append]

def Distinct (l : List (String × α)) : Prop := (l.map Prod.fst).Nodup

instance (l : List (String × α)) : Decidable (Distinct l) :=
  inferInstanceAs (Decidable (l.map Prod.fst).Nodup)

theorem Distinct.single (key : String) (a : α) : Distinct [(key, a)] :=
  List.pairwise_singleton _ _

theorem Distinct.put (h : Distinct l) (key : String) (a : α) : Distinct (put key a l) := by
  unfold Distinct
  rw [put_names]
  split
  · exact h
  · next hn =>
    refine List.nodup_append.mpr ⟨h, List.pairwise_singleton _ _, fun a ha b hb hab => ?_⟩
    rw [List.mem_singleton.mp hb] at hab
    exact hn (hab ▸ ha)

theorem Distinct.map_snd {β : Type} (h : Distinct l) (f : α → β) :
    Distinct (l.map fun m => (m.1, f m.2)) := by
  have hnames : (l.map fun m => (m.1, f m.2)).map Prod.fst = l.map Prod.fst := by
    rw [List.map_map]
    rfl
  unfold Distinct
  rw [hnames]
  exact h

end

theorem toValue_dict (members : List (String × Datum)) (mark : Nat) :
    (dict members mark).toValue = .object (objectOf members) := rfl

theorem valuesOf_eq (items : List Datum) : valuesOf items = items.map toValue := by
  induction items with
  | nil => rfl
  | cons d rest ih => rw [valuesOf, ih, List.map_cons]

theorem lookup_objectOf (members : List (String × Datum)) (key : String) :
    (objectOf members).get? key = (members.lookup key).map toValue := by
  induction members with
  | nil => rfl
  | cons m rest ih =>
    obtain ⟨k, d⟩ := m
    rw [objectOf, Object.get?_insert, ih, lookup_cons_ite]
    split <;> rfl

mutual
theorem toValue_mapMarks (f : Nat → Nat) : (d : Datum) → (d.mapMarks f).toValue = d.toValue
  | .atom a mark => rfl
  | .list items mark => by rw [mapMarks, toValue, toValue, valuesOf_mapItemMarks f items]
  | .dict members mark => by rw [mapMarks, toValue, toValue, objectOf_mapMemberMarks f members]

theorem valuesOf_mapItemMarks (f : Nat → Nat) :
    (items : List Datum) → valuesOf (mapItemMarks f items) = valuesOf items
  | [] => rfl
  | d :: rest => by
    rw [mapItemMarks, valuesOf, valuesOf, toValue_mapMarks f d, valuesOf_mapItemMarks f rest]

theorem objectOf_mapMemberMarks (f : Nat → Nat) :
    (members : List (String × Datum)) → objectOf (mapMemberMarks f members) = objectOf members
  | [] => rfl
  | (key, d) :: rest => by
    rw [mapMemberMarks, objectOf, objectOf, toValue_mapMarks f d, objectOf_mapMemberMarks f rest]
end

theorem mapMemberMarks_eq (f : Nat → Nat) (members : List (String × Datum)) :
    mapMemberMarks f members = members.map fun m => (m.1, m.2.mapMarks f) := by
  induction members with
  | nil => rfl
  | cons m rest ih =>
    obtain ⟨key, d⟩ := m
    rw [mapMemberMarks, ih, List.map_cons]

/-- What there is in a place when something is laid over it. -/
def overlay? : (below upper : Option Datum) → Option Datum
  | none, upper => upper
  | below, none => below
  | some below, some upper => some (below.overlay upper)

theorem overlay?_none (d : Option Datum) : overlay? d none = d := by cases d <;> rfl

theorem lookup_overlayMembers {below upper : List (String × Datum)} (h : Distinct upper)
    (key : String) :
    (overlayMembers below upper).lookup key =
      overlay? (below.lookup key) (upper.lookup key) := by
  induction upper generalizing below with
  | nil => rw [overlayMembers, List.lookup_nil, overlay?_none]
  | cons m rest ih =>
    obtain ⟨k, d⟩ := m
    obtain ⟨hk, hrest⟩ := List.nodup_cons.mp h
    rw [overlayMembers, ih hrest, lookup_put, lookup_cons_ite]
    by_cases hn : key = k
    · have hnone : rest.lookup k = none := by
        cases hl : rest.lookup k with
        | none => rfl
        | some b => exact absurd (mem_names_of_lookup hl) hk
      subst hn
      rw [if_pos rfl, if_pos rfl, hnone, overlay?_none]
      cases below.lookup key <;> rfl
    · rw [if_neg hn, if_neg hn]

theorem Distinct.overlayMembers {below : List (String × Datum)} (h : Distinct below)
    (upper : List (String × Datum)) : Distinct (overlayMembers below upper) := by
  induction upper generalizing below with
  | nil =>
    rw [Datum.overlayMembers]
    exact h
  | cons m rest ih =>
    obtain ⟨k, d⟩ := m
    rw [Datum.overlayMembers]
    exact ih (h.put k _)

theorem overlay_alike (below upper : Datum) :
    (below.overlay upper).toValue.Alike upper.toValue := by
  cases upper with
  | atom | list =>
    simp only [overlay]
    exact .inl rfl
  | dict members mark =>
    refine .inr ⟨?_, _, toValue_dict members mark⟩
    cases below with
    | atom | list | dict =>
      simp only [overlay]
      exact ⟨_, toValue_dict _ _⟩

end Datum

end ToolPipeline
