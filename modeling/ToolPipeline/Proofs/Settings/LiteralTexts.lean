import ToolPipeline.Proofs.Json.SpelledTrees
import ToolPipeline.Proofs.Settings.LiteralFiles

/-! Trees in settings files. Where no object in a tree has one of the two keys by which it may stand
for another value, a file that spells the tree means what it says. -/

namespace ToolPipeline.SettingsFile

open Json

/-- By this key no object stands for another value. -/
def PlainKey (key : String) : Prop := key ≠ markKey ∧ key ≠ valueKey

instance (key : String) : Decidable (PlainKey key) := inferInstanceAs (Decidable (_ ∧ _))

theorem readLiteral_holdsTrees :
    HoldsTrees readLiteral (fun depth => readLiteralPart (readLiteral depth)) PlainKey where
  scalar hlist hobject := by
    unfold readLiteral
    split
    · next hs => exact absurd hs (hlist _)
    · next hs => exact absurd hs (hobject _)
    · rfl
  array hs := by
    unfold readLiteral
    simp only [hs]
  object {depth s tail} hs := by
    unfold readLiteral
    simp only [hs]
  arrayTooDeep hs := by
    unfold readLiteral
    simp only [hs]
    exact ⟨_, rfl, rfl⟩
  objectTooDeep hs := by
    unfold readLiteral
    simp only [hs]
    exact ⟨_, rfl, rfl⟩
  member hk := if_neg (not_or.mpr hk)

/-- The object that is the whole file may have any keys. -/
theorem literal_of_spells {members : List (String × Json)} {core text : List Char}
    (hk : ∀ m ∈ members, Keyed PlainKey m.2) (hn : ∀ n ∈ memberNumbers members, n.IsWhole)
    (hfits : (Json.object members).nesting ≤ depthLimit) (hs : Spells (.object members) core)
    (htext : Padded core text) : Literal (String.ofList text) := by
  obtain ⟨blank, parts, hblank, hparts, rfl⟩ := hs
  obtain ⟨after, hafter, hskip⟩ := htext.skipSpace rfl rfl
  have hnumbers := forall_memberNumbers_iff.mp hn
  rw [nesting, membersNesting_eq] at hfits
  have hmembers : MembersRecovered (fun depth key (o : Object) s =>
      (readMemberValue (readLiteral depth) key s).map fun r => (o.insert key r.1, r.2))
      (deepest (fun m => m.2.nesting) members) .empty parts (.ofList (holdMembers members)) :=
    members_recovered (fun _ _ => rfl)
      (fun m hm core hc => readLiteral_holdsTrees.recovered (hk m hm) (hnumbers m hm) hc) hparts
      .empty
  have hread := (readMembers_recovered hmembers hblank (depthLimit - 1) (after.map .char)).fit
    (Nat.le_sub_one_of_lt hfits)
  have htop : readLiteralTop (text.map .char) =
      .ok (.ofList (holdMembers members), after.map .char) := by
    have hstart := hskip []
    unfold readLiteralTop
    simp only [List.append_nil, List.map_cons, List.cons_append] at hstart
    simp only [hstart]
    exact map_eq_ok_iff.mpr ⟨_, hread, rfl⟩
  have hwhole := readWhole_eq_ok_iff.mpr ⟨_, htop, readEnd_blank hafter⟩
  unfold Literal
  rw [Piece.ofString, String.toList_ofList, hwhole]
  rfl

end ToolPipeline.SettingsFile
