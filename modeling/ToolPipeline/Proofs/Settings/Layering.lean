import ToolPipeline.Proofs.Settings.LayerLeaves
import ToolPipeline.Proofs.Settings.LiteralFiles
import ToolPipeline.Proofs.Settings.Loading

/-! Settings value by value. Each of the ten comes from the environment, or else from the file, or
else from the defaults, whatever else these hold. -/

namespace ToolPipeline

open Json

def Json.Object.leaf? (o : Object) (l : Leaf) : Option Value :=
  ((o.get? l.sect).bind Value.asObject?).bind (·.get? l.key)

/-- All sections that there are are objects. -/
def Json.Object.HasSections (o : Object) : Prop :=
  ∀ (l : Leaf) v, o.get? l.sect = some v → ∃ p, v = .object p

instance (o : Object) : Decidable o.HasSections :=
  decidable_of_iff (∀ l ∈ Leaf.firsts, (o.get? l.sect).all fun v => v.asObject?.isSome) <| by
    have hall (l : Leaf) : ((o.get? l.sect).all fun v => v.asObject?.isSome) ↔
        ∀ v, o.get? l.sect = some v → ∃ p, v = .object p := by
      simp only [Option.all_eq_true, Option.isSome_iff_exists, Value.asObject?_eq_some_iff]
    have hsect := Leaf.forall_sect (P := fun name =>
      (o.get? name).all fun v => v.asObject?.isSome)
    rw [List.forall_mem_map] at hsect
    exact hsect.trans (forall_congr' hall)

namespace SettingsFile

/-- A file that is missing, or a literal one that holds an object whose sections are objects. -/
inductive Contents : Option SourceFile → Object → Prop
  | missing : Contents none .empty
  | present {file : SourceFile} {text : String} {o : Object}
      (htext : textOfOctets? file.octets = some text) (ho : Json.parse text = .ok (.object o))
      (hsections : o.HasSections) (hliteral : Literal text) : Contents (some file) o

variable {o : Object}

theorem Reads.holds {members : List (String × Datum)} (h : Reads o members)
    (hs : o.HasSections) : Holds members o.leaf? := by
  have hdict (l : Leaf) (d : Datum) (hd : members.lookup l.sect = some d) :
      ∃ inner mark, d = .dict inner mark ∧ Datum.Distinct inner ∧
        o.get? l.sect = some (.object (Datum.objectOf inner)) := by
    have ho : o.get? l.sect = some d.toValue := by rw [h.lookup, hd]; rfl
    obtain ⟨p, hp⟩ := hs l _ ho
    cases d with
    | atom a mark => cases a <;> cases hp
    | list items mark => cases hp
    | dict inner mark => exact ⟨inner, mark, rfl, h.tidy _ _ hd _ _ rfl, ho⟩
  refine ⟨⟨h.distinct, fun l d hd => ?_⟩, fun l => ?_⟩
  · obtain ⟨inner, mark, rfl, hn, -⟩ := hdict l d hd
    exact ⟨inner, mark, rfl, hn⟩
  · cases hd : members.lookup l.sect with
    | none =>
      have ho : o.get? l.sect = none := by rw [h.lookup, hd]; rfl
      rw [Leaf.find?_of_none hd, Object.leaf?, ho]
      exact .none
    | some d =>
      obtain ⟨inner, mark, rfl, -, ho⟩ := hdict l d hd
      rw [Leaf.find?_of_dict hd, Object.leaf?, ho, Option.bind_some, Value.asObject?_object,
        Option.bind_some, Datum.lookup_objectOf]
      cases inner.lookup l.key with
      | none => exact .none
      | some b => exact .some (.inl rfl)

end SettingsFile

theorem Leaf.fits_of_alike {l : Leaf} {v w : Value} (h : v.Alike w) :
    (l.Fits v ↔ l.Fits w) ∧ (l.Fits v → v = w) := by
  rcases h with rfl | ⟨⟨p, rfl⟩, q, rfl⟩
  · exact ⟨Iff.rfl, fun _ => rfl⟩
  · exact ⟨iff_of_false (l.not_fits_object p) (l.not_fits_object q),
      fun h => absurd h (l.not_fits_object p)⟩

namespace Settings

/-- What a leaf is to be: what the environment says, or else the file, or else the defaults. -/
def chosen (o : Object) (environment : List (String × String)) (l : Leaf) : Value :=
  ((Environment.value? environment l).or (o.leaf? l)).getD (l.of default)

variable {file : Option SourceFile} {o : Object} {environment : List (String × String)}

theorem some_chosen (o : Object) (environment : List (String × String)) (l : Leaf) :
    some (chosen o environment l) =
      (Environment.value? environment l).or ((o.leaf? l).or (some (l.of default))) := by
  unfold chosen
  cases Environment.value? environment l <;> cases o.leaf? l <;> rfl

theorem layers_hold (hf : SettingsFile.Contents file o)
    (he : Environment.NamesLeaves environment) :
    ∃ layers members, Settings.layers file environment = .ok layers ∧
      Layer.merge layers = .dict members 0 ∧
      Holds members fun l => some (chosen o environment l) := by
  have hdefaults := Holds.nil.overlay (Holds.defaults.settled 1)
  simp only [some_chosen]
  cases hf with
  | missing =>
    have hnone (l : Leaf) : Object.empty.leaf? l = none := by
      rw [Object.leaf?, Object.get?_empty]
      rfl
    refine ⟨_, _, rfl, rfl, ?_⟩
    simp only [hnone]
    exact hdefaults.overlay ((Holds.environment he).settled 2)
  | @present file text o htext ho hsections hliteral =>
    obtain ⟨members, hm, hr⟩ := SettingsFile.parse_of_literal ho hliteral
    let layer : Layer := ⟨.file file.path, members⟩
    have hlayer : fileLayer file = .ok layer := by simp only [fileLayer, htext, hm, layer]
    have hmembers : Holds layer.members o.leaf? := hr.holds hsections
    refine ⟨[defaultLayer, layer, Environment.layer environment], _, ?_, rfl, ?_⟩
    · simp only [layers, hlayer, Except.map]
    · exact (hdefaults.overlay (hmembers.settled 2)).overlay ((Holds.environment he).settled 3)

theorem exists_in_of_holds {members : List (String × Datum)} {values : Leaf → Value}
    (h : Holds members fun l => some (values l)) :
    ∃ found : Leaf → Value, (∀ l : Leaf, l.In (Datum.objectOf members) (found l)) ∧
      ∀ l, (found l).Alike (values l) := by
  have hl (l : Leaf) : ∃ v, l.In (Datum.objectOf members) v ∧ v.Alike (values l) := by
    have hr := h.leaves l
    cases hd : l.find? members with
    | none =>
      rw [hd] at hr
      cases hr
    | some d =>
      rw [hd] at hr
      cases hr with
      | some ha =>
        cases hs : members.lookup l.sect with
        | none =>
          rw [Leaf.find?_of_none hs] at hd
          cases hd
        | some b =>
          obtain ⟨inner, mark, rfl, -⟩ := h.sectioned.sections l b hs
          rw [Leaf.find?_of_dict hs] at hd
          refine ⟨d.toValue, ⟨Datum.objectOf inner, ?_, ?_⟩, ha⟩
          · rw [Datum.lookup_objectOf, hs]
            rfl
          · rw [Datum.lookup_objectOf, hd]
            rfl
  exact ⟨fun l => (hl l).choose, fun l => (hl l).choose_spec.1, fun l => (hl l).choose_spec.2⟩

theorem load_of_fits (hf : SettingsFile.Contents file o)
    (he : Environment.NamesLeaves environment)
    (h : ∀ l : Leaf, l.Fits (chosen o environment l)) :
    ∃ s, (∀ l : Leaf, l.of s = chosen o environment l) ∧
      (s.rangeError? = none ∧ load file environment = .ok s ∨
        ∃ e, s.rangeError? = some e ∧ load file environment = .error (.range e)) := by
  obtain ⟨layers, members, hlayers, hmerge, hholds⟩ := layers_hold hf he
  obtain ⟨found, hin, halike⟩ := exists_in_of_holds hholds
  have hfound (l : Leaf) : found l = chosen o environment l :=
    (Leaf.fits_of_alike (halike l)).2 ((Leaf.fits_of_alike (halike l)).1.mpr (h l))
  have hload : load file environment = ofLayers layers := by
    simp only [load, hlayers, Except.bind]
  have hvalue : (Layer.merge layers).toValue = .object (Datum.objectOf members) := by
    rw [hmerge, Datum.toValue_dict]
  simp only [hfound] at hin
  obtain ⟨w, hw⟩ := (Leaf.settings_ok_iff hin).mpr h
  obtain ⟨r, rfl, hr⟩ := Leaf.settings_values hin hw
  rw [← hvalue] at hw
  refine ⟨ofValue (.object r), fun l => Leaf.of_ofValue (hr l) (h l), ?_⟩
  rw [hload]
  cases he : (ofValue (.object r)).rangeError? with
  | none => exact .inl ⟨rfl, ofLayers_of_inRange hw he⟩
  | some e => exact .inr ⟨e, rfl, ofLayers_of_rangeError hw he⟩

theorem load_of_not_fits (hf : SettingsFile.Contents file o)
    (he : Environment.NamesLeaves environment) {l : Leaf}
    (h : ¬ l.Fits (chosen o environment l)) :
    ∃ e, load file environment = .error e ∧ e.isLoad = true := by
  obtain ⟨layers, members, hlayers, hmerge, hholds⟩ := layers_hold hf he
  obtain ⟨found, hin, halike⟩ := exists_in_of_holds hholds
  have hload : load file environment = ofLayers layers := by
    simp only [load, hlayers, Except.bind]
  have hvalue : (Layer.merge layers).toValue = .object (Datum.objectOf members) := by
    rw [hmerge, Datum.toValue_dict]
  cases hw : shape.check (Layer.merge layers).toValue with
  | error m =>
    obtain ⟨origin, signed, hm⟩ := ofLayers_of_misfit hw
    exact ⟨_, hload.trans hm, rfl⟩
  | ok w =>
    rw [hvalue] at hw
    have hfits := (Leaf.settings_ok_iff hin).mp ⟨w, hw⟩ l
    exact absurd ((Leaf.fits_of_alike (halike l)).1.mp hfits) h

end Settings

/-- What loading comes to, value by value, for a file that has the given contents. -/
structure Settings.LayeredByKey (file : Option SourceFile) (o : Object)
    (environment : List (String × String)) : Prop where
  values : ∀ s, load file environment = .ok s →
    (∀ l : Leaf, l.of s = chosen o environment l) ∧ s.InRange
  wrongType : ∀ l : Leaf, ¬ l.Fits (chosen o environment l) →
    ∃ e, load file environment = .error e ∧ e.isLoad = true
  rightTypes : (∀ l : Leaf, l.Fits (chosen o environment l)) →
    ∃ s, (∀ l : Leaf, l.of s = chosen o environment l) ∧
      (s.rangeError? = none ∧ load file environment = .ok s ∨
        ∃ e, s.rangeError? = some e ∧ load file environment = .error (.range e))
  /-- What layers have at one leaf does not bear on any other leaf. -/
  apart : ∀ file' o' environment' s s', SettingsFile.Contents file' o' →
    Environment.NamesLeaves environment' → load file environment = .ok s →
    load file' environment' = .ok s' → ∀ l : Leaf, o'.leaf? l = o.leaf? l →
    Environment.value? environment' l = Environment.value? environment l → l.of s' = l.of s
  /-- Nothing but what layers have at the leaves bears on the settings. -/
  unknown : ∀ file' o' environment' s, SettingsFile.Contents file' o' →
    Environment.NamesLeaves environment' → (∀ l : Leaf, o'.leaf? l = o.leaf? l) →
    (∀ l, Environment.value? environment' l = Environment.value? environment l) →
    (load file' environment' = .ok s ↔ load file environment = .ok s)

section
variable {file file' : Option SourceFile} {o o' : Object}
  {environment environment' : List (String × String)} {s : Settings}

theorem Settings.values_of_load (hf : SettingsFile.Contents file o)
    (he : Environment.NamesLeaves environment) (h : load file environment = .ok s) :
    (∀ l : Leaf, l.Fits (chosen o environment l)) ∧
      ∀ l : Leaf, l.of s = chosen o environment l := by
  have hfits (l : Leaf) : l.Fits (chosen o environment l) := by
    refine Classical.byContradiction fun hn => ?_
    obtain ⟨e, hl, -⟩ := load_of_not_fits hf he hn
    rw [h] at hl
    cases hl
  refine ⟨hfits, ?_⟩
  obtain ⟨t, ht, ⟨-, hl⟩ | ⟨e, -, hl⟩⟩ := load_of_fits hf he hfits
  · rw [h, Except.ok.injEq] at hl
    exact hl ▸ ht
  · rw [h] at hl
    cases hl

theorem Settings.load_congr (hf : SettingsFile.Contents file o)
    (he : Environment.NamesLeaves environment) (hf' : SettingsFile.Contents file' o')
    (he' : Environment.NamesLeaves environment')
    (hc : ∀ l, chosen o' environment' l = chosen o environment l)
    (h : load file environment = .ok s) : load file' environment' = .ok s := by
  obtain ⟨hfits, hvalues⟩ := values_of_load hf he h
  obtain ⟨t, ht, hl⟩ := load_of_fits hf' he' fun l => (hc l).symm ▸ hfits l
  have heq : t = s := Leaf.ext_of fun l => ((ht l).trans (hc l)).trans (hvalues l).symm
  subst heq
  have hr := rangeError?_eq_none_iff.mpr (inRange_of_load h)
  rcases hl with ⟨-, hl⟩ | ⟨e, he, -⟩
  · exact hl
  · rw [hr] at he
    cases he

theorem Settings.chosen_congr {l : Leaf} (ho : o'.leaf? l = o.leaf? l)
    (he : Environment.value? environment' l = Environment.value? environment l) :
    chosen o' environment' l = chosen o environment l := by
  rw [chosen, chosen, ho, he]

end

/-- Settings are layered value by value. -/
theorem settings_layered_by_key {file : Option SourceFile} {o : Object}
    {environment : List (String × String)} (hf : SettingsFile.Contents file o)
    (he : Environment.NamesLeaves environment) : Settings.LayeredByKey file o environment where
  values s h := ⟨(Settings.values_of_load hf he h).2, Settings.inRange_of_load h⟩
  wrongType l h := Settings.load_of_not_fits hf he h
  rightTypes h := Settings.load_of_fits hf he h
  apart file' o' environment' s s' hf' he' h h' l ho hv := by
    rw [(Settings.values_of_load hf' he' h').2, (Settings.values_of_load hf he h).2]
    exact Settings.chosen_congr ho hv
  unknown file' o' environment' s hf' he' ho hv := by
    have hc (l : Leaf) := Settings.chosen_congr (ho l) (hv l)
    exact ⟨Settings.load_congr hf' he' hf he fun l => (hc l).symm,
      Settings.load_congr hf he hf' he' hc⟩

/-- A file with keys that nobody knows, and variables in capital and in small letters. -/
theorem settings_layered_by_key_mixed :
    let text := "\x7b\"server\":\x7b\"port\":9000,\"color\":\"red\"\x7d,\"extra\":[1]\x7d"
    let file : SourceFile := ⟨"settings.json", text.toList.map fun c => UInt8.ofNat c.toNat⟩
    let environment := [("VISTA_SERVER__HOST", "::1"), ("vista_logging__json", "true"),
      ("PATH", "/bin")]
    let s : Settings :=
      { Settings.default with
        server := { Settings.default.server with host := "::1", port := 9000 }
        logging := { Settings.default.logging with json := true } }
    ∃ o, SettingsFile.Contents (some file) o ∧ Environment.NamesLeaves environment ∧
      Settings.LayeredByKey (some file) o environment ∧
      Settings.load (some file) environment = .ok s ∧
      Settings.chosen o environment .port = .int 9000 := by
  intro text file environment s
  have htext : textOfOctets? file.octets = some text := by decide +kernel
  have hparse : ((Json.parse text).toOption.bind Value.asObject?).any
      (fun o => decide o.HasSections) = true := by decide +kernel
  obtain ⟨o, ho, hsections⟩ := (Option.any_eq_true _ _).mp hparse
  obtain ⟨v, hv, ho⟩ := Option.bind_eq_some_iff.mp ho
  obtain rfl := Value.asObject?_eq_some_iff.mp ho
  have hf : SettingsFile.Contents (some file) o :=
    .present htext (toOption_eq_some_iff.mp hv) (of_decide_eq_true hsections) (by decide +kernel)
  have he : Environment.NamesLeaves environment := by
    intro entry h
    rcases List.mem_cons.mp h with rfl | h
    · exact .inr ⟨.host, by decide +kernel⟩
    · rcases List.mem_cons.mp h with rfl | h
      · exact .inr ⟨.json, by decide +kernel⟩
      · obtain rfl := List.mem_singleton.mp h
        exact .inl (by decide +kernel)
  have hload : (Settings.load (some file) environment).toOption = some s := by decide +kernel
  have hlayered := settings_layered_by_key hf he
  have hs := toOption_eq_some_iff.mp hload
  exact ⟨o, hf, he, hlayered, hs, ((hlayered.values s hs).1 .port).symm⟩

/-- An object that stands for a number is none in the settings, and yet it is one in the file. -/
theorem object_stands_for_port :
    let text := "\x7b\"server\":\x7b\"port\":\x7b\"___figment_value_id\":0," ++
      "\"___figment_value_value\":9000\x7d\x7d\x7d"
    let file : SourceFile := ⟨"settings.json", text.toList.map fun c => UInt8.ofNat c.toNat⟩
    ∃ o s, textOfOctets? file.octets = some text ∧ Json.parse text = .ok (.object o) ∧
      o.HasSections ∧ ¬ Leaf.port.Fits (Settings.chosen o [] .port) ∧
      Settings.load (some file) [] = .ok s ∧ s.server.port = 9000 := by
  intro text file
  have htext : textOfOctets? file.octets = some text := by decide +kernel
  have hparse : ((Json.parse text).toOption.bind Value.asObject?).any (fun o =>
      decide o.HasSections && (o.leaf? .port).any fun v => v.asObject?.isSome) = true := by
    decide +kernel
  obtain ⟨o, ho, hcheck⟩ := (Option.any_eq_true _ _).mp hparse
  obtain ⟨v, hv, ho⟩ := Option.bind_eq_some_iff.mp ho
  obtain rfl := Value.asObject?_eq_some_iff.mp ho
  obtain ⟨hsections, hport⟩ := Bool.and_eq_true_iff.mp hcheck
  obtain ⟨w, hw, hobject⟩ := (Option.any_eq_true _ _).mp hport
  obtain ⟨p, hp⟩ := Option.isSome_iff_exists.mp hobject
  obtain rfl := Value.asObject?_eq_some_iff.mp hp
  have hchosen : Settings.chosen o [] .port = .object p := by
    rw [Settings.chosen, hw]
    rfl
  have hload :
      ((Settings.load (some file) []).toOption.any fun s => s.server.port == 9000) = true := by
    decide +kernel
  obtain ⟨s, hs, hvalue⟩ := (Option.any_eq_true _ _).mp hload
  exact ⟨o, s, htext, toOption_eq_some_iff.mp hv, of_decide_eq_true hsections,
    hchosen ▸ Leaf.port.not_fits_object p, toOption_eq_some_iff.mp hs, eq_of_beq hvalue⟩

end ToolPipeline
