import ToolPipeline.Proofs.Settings.Leaves
import ToolPipeline.Proofs.Settings.Overlays
import ToolPipeline.Settings.Load

/-! What layers set at the leaves of settings. A layer over another one has its own values where it
sets any, and those of the other one elsewhere. -/

namespace ToolPipeline

open Json Datum

def Leaf.find? (l : Leaf) (members : List (String × Datum)) : Option Datum :=
  match members.lookup l.sect with
  | some (.dict inner _) => inner.lookup l.key
  | _ => none

structure Sectioned (members : List (String × Datum)) : Prop where
  distinct : Distinct members
  sections : ∀ (l : Leaf) d, members.lookup l.sect = some d →
    ∃ inner mark, d = .dict inner mark ∧ Distinct inner

/-- Members have these values at the leaves, and elsewhere anything; an object in the place of a
leaf may be another one. -/
structure Holds (members : List (String × Datum)) (values : Leaf → Option Value) : Prop where
  sectioned : Sectioned members
  leaves : ∀ l : Leaf, Option.Rel (fun d v => d.toValue.Alike v) (l.find? members) (values l)

section
variable {below upper members : List (String × Datum)} {l : Leaf}

theorem Leaf.find?_of_dict {inner : List (String × Datum)} {mark : Nat}
    (h : members.lookup l.sect = some (.dict inner mark)) :
    l.find? members = inner.lookup l.key := by
  simp only [find?, h]

theorem Leaf.find?_of_none (h : members.lookup l.sect = none) : l.find? members = none := by
  simp only [find?, h]

theorem Sectioned.overlay_at (hb : Sectioned below) (hu : Sectioned upper) (l : Leaf) :
    (∀ d, (overlayMembers below upper).lookup l.sect = some d →
      ∃ inner mark, d = .dict inner mark ∧ Distinct inner) ∧
    l.find? (overlayMembers below upper) = overlay? (l.find? below) (l.find? upper) := by
  have hl : (overlayMembers below upper).lookup l.sect = _ :=
    lookup_overlayMembers hu.distinct l.sect
  cases hbl : below.lookup l.sect with
  | none =>
    rw [hbl] at hl
    have hl : (overlayMembers below upper).lookup l.sect = upper.lookup l.sect := hl
    refine ⟨fun d hd => hu.sections l d (hl ▸ hd), ?_⟩
    rw [Leaf.find?_of_none hbl]
    simp only [Leaf.find?, hl]
    exact (overlay?.eq_1 _).symm
  | some b =>
    obtain ⟨old, mark, rfl, hold⟩ := hb.sections l b hbl
    rw [Leaf.find?_of_dict hbl]
    cases hul : upper.lookup l.sect with
    | none =>
      rw [hbl, hul, overlay?_none] at hl
      refine ⟨fun d hd => hb.sections l d ((hbl.trans hl.symm).trans hd), ?_⟩
      rw [Leaf.find?_of_dict hl, Leaf.find?_of_none hul, overlay?_none]
    | some u =>
      obtain ⟨new, mark', rfl, hnew⟩ := hu.sections l u hul
      have hl : (overlayMembers below upper).lookup l.sect =
          some (.dict (overlayMembers old new) mark') := by
        rw [hl, hbl, hul, overlay?, Datum.overlay]
      refine ⟨fun d hd => ?_, ?_⟩
      · rw [hl] at hd
        cases hd
        exact ⟨_, _, rfl, hold.overlayMembers new⟩
      · rw [Leaf.find?_of_dict hl, Leaf.find?_of_dict hul]
        exact lookup_overlayMembers hnew l.key

theorem rel_overlay? {b u : Option Datum} {v w : Option Value}
    (hb : Option.Rel (fun d v => d.toValue.Alike v) b v)
    (hu : Option.Rel (fun d v => d.toValue.Alike v) u w) :
    Option.Rel (fun d v => d.toValue.Alike v) (overlay? b u) (w.or v) := by
  cases hu with
  | none =>
    rw [overlay?_none, Option.none_or]
    exact hb
  | some hu =>
    rw [Option.some_or]
    cases hb with
    | none => exact .some hu
    | some hb => exact .some ((overlay_alike _ _).trans hu)

theorem Holds.overlay {v w : Leaf → Option Value} (hb : Holds below v) (hu : Holds upper w) :
    Holds (overlayMembers below upper) fun l => (w l).or (v l) := by
  have hat := hb.sectioned.overlay_at hu.sectioned
  refine ⟨⟨hb.sectioned.distinct.overlayMembers upper, fun l => (hat l).1⟩, fun l => ?_⟩
  rw [(hat l).2]
  exact rel_overlay? (hb.leaves l) (hu.leaves l)

theorem Holds.nil : Holds [] fun _ => none where
  sectioned := ⟨List.nodup_nil, fun l d h => by cases h⟩
  leaves _ := .none

theorem lookup_settled (layer : Layer) (number : Nat) (key : String) :
    (layer.settled number).lookup key = (layer.members.lookup key).map (·.settled number) :=
  lookup_map_snd (fun d : Datum => d.settled number) layer.members key

theorem Leaf.find?_settled (layer : Layer) (number : Nat) (l : Leaf) :
    l.find? (layer.settled number) = (l.find? layer.members).map (·.settled number) := by
  have hl := lookup_settled layer number l.sect
  cases hd : layer.members.lookup l.sect with
  | none =>
    rw [hd] at hl
    rw [find?_of_none hd, find?_of_none hl]
    rfl
  | some d =>
    rw [hd, Option.map_some] at hl
    cases d with
    | atom | list => simp only [find?, hd, hl, Datum.settled, mapMarks, Option.map_none]
    | dict inner mark =>
      rw [find?_of_dict hd]
      simp only [find?, hl, Datum.settled, mapMarks, mapMemberMarks_eq]
      exact lookup_map_snd _ inner l.key

theorem Holds.settled {layer : Layer} {values : Leaf → Option Value}
    (h : Holds layer.members values) (number : Nat) : Holds (layer.settled number) values := by
  refine ⟨⟨h.sectioned.distinct.map_snd _, fun l d hd => ?_⟩, fun l => ?_⟩
  · rw [lookup_settled, Option.map_eq_some_iff] at hd
    obtain ⟨b, hb, rfl⟩ := hd
    obtain ⟨inner, mark, rfl, hi⟩ := h.sectioned.sections l b hb
    unfold Datum.settled
    rw [mapMarks, mapMemberMarks_eq]
    exact ⟨_, _, rfl, hi.map_snd _⟩
  · have hl := h.leaves l
    rw [Leaf.find?_settled]
    generalize l.find? layer.members = d, values l = v at hl
    cases hl with
    | none => exact .none
    | some ha =>
      refine .some ?_
      unfold Datum.settled
      rw [toValue_mapMarks]
      exact ha

end

theorem Holds.defaults : Holds Settings.defaultLayer.members fun l =>
    some (l.of Settings.default) := by
  have hfound (l : Leaf) : ∃ inner mark, Settings.defaultLayer.members.lookup l.sect =
      some (.dict inner mark) ∧ Distinct inner ∧
      ∃ d, inner.lookup l.key = some d ∧ d.toValue = l.of Settings.default := by
    cases l <;> exact ⟨_, _, rfl, by decide, _, rfl, rfl⟩
  refine ⟨⟨by decide, fun l d hd => ?_⟩, fun l => ?_⟩
  · obtain ⟨inner, mark, hi, hn, -⟩ := hfound l
    cases hi.symm.trans hd
    exact ⟨inner, mark, rfl, hn⟩
  · obtain ⟨inner, mark, hi, -, d, hd, hv⟩ := hfound l
    rw [Leaf.find?_of_dict hi, hd]
    exact .some (.inl hv)

namespace Environment

/-- The names of settings are those of leaves. -/
def NamesLeaves (environment : List (String × String)) : Prop :=
  ∀ entry ∈ environment, keysOf? entry.1 = none ∨
    ∃ l : Leaf, keysOf? entry.1 = some [l.sect, l.key]

def set? (entry : String × String) (l : Leaf) : Option Value :=
  if keysOf? entry.1 = some [l.sect, l.key] then some (datumOf entry.2).toValue else none

/-- What the last variable of its name sets a leaf to. -/
def value? (environment : List (String × String)) (l : Leaf) : Option Value :=
  environment.reverse.findSome? fun entry => set? entry l

theorem value?_cons (entry : String × String) (rest : List (String × String)) (l : Leaf) :
    value? (entry :: rest) l = (value? rest l).or (set? entry l) := by
  rw [value?, List.reverse_cons, List.findSome?_append]
  congr 1
  rw [List.findSome?_cons, List.findSome?_nil]
  cases set? entry l <;> rfl

end Environment

theorem Holds.single (named : Leaf) (d : Datum) :
    Holds [(named.sect, .dict [(named.key, d)] 0)] fun l =>
      if [named.sect, named.key] = [l.sect, l.key] then some d.toValue else none := by
  have hlookup (l : Leaf) : [(named.sect, Datum.dict [(named.key, d)] 0)].lookup l.sect =
      if l.sect = named.sect then some (.dict [(named.key, d)] 0) else none :=
    lookup_cons_ite _ _ _ _
  refine ⟨⟨.single _ _, fun l b hb => ?_⟩, fun l => ?_⟩
  · rw [hlookup] at hb
    split at hb
    · cases hb
      exact ⟨_, _, rfl, .single _ _⟩
    · cases hb
  · by_cases hsect : l.sect = named.sect
    · have hfind : l.find? [(named.sect, .dict [(named.key, d)] 0)] =
          if l.key = named.key then some d else none := by
        rw [Leaf.find?_of_dict ((hlookup l).trans (if_pos hsect)), lookup_cons_ite]
        rfl
      rw [hfind]
      by_cases hkey : l.key = named.key
      · rw [if_pos hkey, if_pos (by rw [hsect, hkey])]
        exact .some (.inl rfl)
      · rw [if_neg hkey, if_neg (by simp [Ne.symm hkey])]
        exact .none
    · rw [Leaf.find?_of_none ((hlookup l).trans (if_neg hsect)), if_neg (by simp [Ne.symm hsect])]
      exact .none

theorem Holds.entry {entry : String × String}
    (h : Environment.keysOf? entry.1 = none ∨
      ∃ l : Leaf, Environment.keysOf? entry.1 = some [l.sect, l.key]) :
    Holds (Environment.memberOf? entry.1 entry.2).toList (Environment.set? entry) := by
  unfold Environment.set?
  rcases h with h | ⟨named, h⟩
  · simp only [Environment.memberOf?, h]
    exact .nil
  · simp only [Environment.memberOf?, h, Option.some.injEq]
    exact .single named _

theorem Holds.environment {environment : List (String × String)}
    (h : Environment.NamesLeaves environment) :
    Holds (Environment.layer environment).members (Environment.value? environment) := by
  have hfold (entries : List (String × String)) (hn : Environment.NamesLeaves entries) :
      ∀ (below : List (String × Datum)) (values : Leaf → Option Value), Holds below values →
        Holds (entries.foldl (fun below entry =>
          overlayMembers below (Environment.memberOf? entry.1 entry.2).toList) below)
          fun l => (Environment.value? entries l).or (values l) := by
    induction entries with
    | nil => exact fun below values hb => hb
    | cons entry rest ih =>
      intro below values hb
      obtain ⟨he, hr⟩ := List.forall_mem_cons.mp hn
      have hh := ih hr _ _ (hb.overlay (Holds.entry he))
      simp only [Environment.value?_cons, Option.or_assoc]
      exact hh
  have hall := hfold environment h [] _ .nil
  simp only [Option.or_none] at hall
  exact hall

end ToolPipeline
