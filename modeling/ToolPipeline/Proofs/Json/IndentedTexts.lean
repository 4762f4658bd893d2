import ToolPipeline.Proofs.Json.SpelledTrees

/-! Indented texts. What is indented has blanks between its parts, and so it spells the same tree as
the text without any. -/

namespace ToolPipeline.Json

theorem blank_newline (level : Nat) : Blank (newline level) := by
  refine List.forall_mem_cons.mpr ⟨rfl, fun c hc => ?_⟩
  rw [List.eq_of_mem_replicate hc]
  rfl

section
variable {before after core part : List Char}

theorem Padded.append_blank (h : Padded core part) (hafter : Blank after) :
    Padded core (part ++ after) := by
  obtain ⟨front, back, hfront, hback, rfl⟩ := h
  exact ⟨front, back ++ after, hfront, List.forall_mem_append.mpr ⟨hback, hafter⟩, by simp⟩

theorem Padded.blank_append (h : Padded core part) (hbefore : Blank before) :
    Padded core (before ++ part) := by
  obtain ⟨front, back, hfront, hback, rfl⟩ := h
  exact ⟨before ++ front, back, List.forall_mem_append.mpr ⟨hbefore, hfront⟩, hback, by simp⟩

end

/-- Blanks behind all the commas and behind the last part are blanks around the parts. -/
theorem separated_padded {gap : List Char} (hgap : Blank gap) {last : List Char}
    (hlast : Blank last) (part : List Char) (parts : List (List Char)) :
    ∃ first rest, Padded part first ∧ List.Forall₂ Padded parts rest ∧
      separated [','] (first :: rest) = separated (',' :: gap) (part :: parts) ++ last := by
  induction parts generalizing part with
  | nil =>
    exact ⟨part ++ last, [], (Padded.refl part).append_blank hlast, .nil, by simp [separated]⟩
  | cons next parts ih =>
    obtain ⟨first, rest, hfirst, hrest, htext⟩ := ih next
    refine ⟨part, (gap ++ first) :: rest, .refl part, .cons (hfirst.blank_append hgap) hrest, ?_⟩
    calc separated [','] (part :: (gap ++ first) :: rest)
      _ = part ++ (',' :: gap ++ separated [','] (first :: rest)) := by simp [separated]
      _ = separated (',' :: gap) (part :: next :: parts) ++ last := by
        rw [htext]
        simp [separated]

theorem bracketed_padded (opening closing : Char) (level : Nat) (parts : List (List Char)) :
    ∃ blank padded, Blank blank ∧ List.Forall₂ Padded parts padded ∧
      bracketed opening closing level parts =
        opening :: (blank ++ (separated [','] padded ++ [closing])) := by
  cases parts with
  | nil => exact ⟨[], [], .nil, .nil, rfl⟩
  | cons part parts =>
    obtain ⟨first, rest, hfirst, hrest, htext⟩ :=
      separated_padded (blank_newline (level + 1)) (blank_newline level) part parts
    refine ⟨newline (level + 1), first :: rest, blank_newline _, .cons hfirst hrest, ?_⟩
    rw [htext]
    simp [bracketed]

theorem itemsSpelled_padded {level : Nat} {items : List Json} {padded : List (List Char)}
    (h : ∀ v ∈ items, Spells v (prettyChars level v))
    (hp : List.Forall₂ Padded (prettyItems level items) padded) : ItemsSpelled items padded := by
  induction items generalizing padded with
  | nil =>
    cases hp
    rfl
  | cons v rest ih =>
    obtain ⟨hv, hrest⟩ := List.forall_mem_cons.mp h
    cases hp with
    | cons hpart hmore => exact ⟨_, _, _, hv, hpart, ih hrest hmore, rfl⟩

theorem membersSpelled_padded {level : Nat} {members : List (String × Json)}
    {padded : List (List Char)} (h : ∀ m ∈ members, Spells m.2 (prettyChars level m.2))
    (hp : List.Forall₂ Padded (prettyMembers level members) padded) :
    MembersSpelled members padded := by
  induction members generalizing padded with
  | nil =>
    cases hp
    rfl
  | cons m rest ih =>
    obtain ⟨hm, hrest⟩ := List.forall_mem_cons.mp h
    cases hp with
    | cons hpart hmore =>
      obtain ⟨front, back, hfront, hback, rfl⟩ := hpart
      have hname : Padded (quoted m.1.toList) (front ++ quoted m.1.toList) :=
        (Padded.refl _).blank_append hfront
      have hblank : Blank [' '] := List.forall_mem_singleton.mpr rfl
      have hvalue : Padded (prettyChars level m.2) ([' '] ++ (prettyChars level m.2 ++ back)) :=
        ((Padded.refl _).append_blank hback).blank_append hblank
      exact ⟨_, _, _, _, hname, hm, hvalue, ih hrest hmore, by simp⟩

theorem spells_prettyChars (v : Json) (level : Nat) : Spells v (prettyChars level v) := by
  induction v using Json.induction generalizing level with
  | null | bool | number | string => rfl
  | array items ih =>
    obtain ⟨blank, padded, hblank, hpadded, htext⟩ :=
      bracketed_padded '[' ']' level (prettyItems (level + 1) items)
    exact ⟨blank, padded, hblank, itemsSpelled_padded (fun v hv => ih v hv _) hpadded, htext⟩
  | object members ih =>
    obtain ⟨blank, padded, hblank, hpadded, htext⟩ :=
      bracketed_padded '{' '}' level (prettyMembers (level + 1) members)
    exact ⟨blank, padded, hblank, membersSpelled_padded (fun m hm => ih m hm _) hpadded, htext⟩

end ToolPipeline.Json
