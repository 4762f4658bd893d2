import ToolPipeline.Proofs.Json.Skipping
import ToolPipeline.Proofs.Json.Trees
import ToolPipeline.Proofs.Json.WrittenScalars

/-! Texts of a tree. Blanks may stand between all of their parts; whatever blanks there are, such a
text is read as the tree, unless it nests too deep. -/

namespace ToolPipeline.Json

def Blank (s : List Char) : Prop := ∀ c ∈ s, isSpace (.char c) = true

def Padded (core s : List Char) : Prop :=
  ∃ before after, Blank before ∧ Blank after ∧ s = before ++ (core ++ after)

theorem Blank.nil : Blank [] := nofun

theorem Padded.refl (core : List Char) : Padded core core :=
  ⟨[], [], .nil, .nil, (List.append_nil core).symm⟩

theorem skipSpace_blank {s : List Char} (h : Blank s) (rest : List Piece) :
    skipSpace (s.map .char ++ rest) = skipSpace rest := by
  induction s with
  | nil => rfl
  | cons c s ih =>
    obtain ⟨hc, hs⟩ := List.forall_mem_cons.mp h
    exact (List.dropWhile_cons_of_pos hc).trans (ih hs)

theorem skipSpace_cons {p : Piece} (h : isSpace p = false) (rest : List Piece) :
    skipSpace (p :: rest) = p :: rest :=
  List.dropWhile_cons_of_neg (by simp [h])

theorem Padded.skipSpace {core part : List Char} (h : Padded core part) {c : Char}
    {tail : List Char} (hcore : core = c :: tail) (hc : isSpace (.char c) = false) :
    ∃ after, Blank after ∧ ∀ rest, Json.skipSpace (part.map .char ++ rest) =
      core.map .char ++ (after.map .char ++ rest) := by
  obtain ⟨before, after, hbefore, hafter, rfl⟩ := h
  refine ⟨after, hafter, fun rest => ?_⟩
  rw [List.map_append, List.append_assoc, skipSpace_blank hbefore, List.map_append,
    List.append_assoc, hcore]
  exact skipSpace_cons hc _

theorem continuesNumber_of_isSpace {c : Char} (h : isSpace (.char c) = true) :
    continuesNumber (.char c) = false := by
  simp only [isSpace, Bool.or_eq_true, beq_iff_eq] at h
  rcases h with ((rfl | rfl) | rfl) | rfl <;> rfl

theorem Ends.blank {s : List Char} (h : Blank s) {rest : List Piece} (hr : Ends rest) :
    Ends (s.map .char ++ rest) := by
  cases s with
  | nil => exact hr
  | cons c s => exact ends_cons (continuesNumber_of_isSpace (h c List.mem_cons_self)) _

mutual
/-- The text of a tree, with any blanks between its parts. -/
def Spells : Json → List Char → Prop
  | .array items, s => ∃ blank parts, Blank blank ∧ ItemsSpelled items parts ∧
      s = '[' :: (blank ++ (separated [','] parts ++ [']']))
  | .object members, s => ∃ blank parts, Blank blank ∧ MembersSpelled members parts ∧
      s = '{' :: (blank ++ (separated [','] parts ++ ['}']))
  | v, s => s = chars v

def ItemsSpelled : List Json → List (List Char) → Prop
  | [], parts => parts = []
  | v :: rest, parts => ∃ core part more, Spells v core ∧ Padded core part ∧
      ItemsSpelled rest more ∧ parts = part :: more

def MembersSpelled : List (String × Json) → List (List Char) → Prop
  | [], parts => parts = []
  | (key, v) :: rest, parts => ∃ name core part more, Padded (quoted key.toList) name ∧
      Spells v core ∧ Padded core part ∧ MembersSpelled rest more ∧
      parts = (name ++ ':' :: part) :: more
end

theorem itemsSpelled_chars {items : List Json} (h : ∀ v ∈ items, Spells v (chars v)) :
    ItemsSpelled items (itemChars items) := by
  induction items with
  | nil => rfl
  | cons v rest ih =>
    obtain ⟨hv, hrest⟩ := List.forall_mem_cons.mp h
    exact ⟨chars v, chars v, itemChars rest, hv, .refl _, ih hrest, rfl⟩

theorem membersSpelled_chars {members : List (String × Json)}
    (h : ∀ m ∈ members, Spells m.2 (chars m.2)) :
    MembersSpelled members (memberChars members) := by
  induction members with
  | nil => rfl
  | cons m rest ih =>
    obtain ⟨hm, hrest⟩ := List.forall_mem_cons.mp h
    exact ⟨_, chars m.2, chars m.2, memberChars rest, .refl _, hm, .refl _, ih hrest, rfl⟩

theorem spells_chars (v : Json) : Spells v (chars v) := by
  induction v using Json.induction with
  | null | bool | number | string => rfl
  | array items ih => exact ⟨[], itemChars items, .nil, itemsSpelled_chars ih, rfl⟩
  | object members ih => exact ⟨[], memberChars members, .nil, membersSpelled_chars ih, rfl⟩

def TooDeep {α : Type} (x : Result α) : Prop := ∃ f, x = .error f ∧ f.cause = .flaw .tooDeep

/-- The reader gives that if it gets so deep, and gives up otherwise. -/
structure Reaches {α : Type} (fits : Prop) (x : Result α) (r : α × List Piece) : Prop where
  fit : fits → x = .ok r
  tooDeep : ¬ fits → TooDeep x

/-- A text that nests so deep is read as that, whatever follows. -/
structure Recovers {α : Type} (reader : Nat → List Piece → Result α) (nest : Nat)
    (core : List Char) (a : α) : Prop where
  starts : ∃ c tail, core = c :: tail ∧ isSpace (.char c) = false ∧ c ≠ ']'
  reaches : ∀ depth s rest, Ends rest → skipSpace s = core.map .char ++ rest →
    Reaches (nest ≤ depth) (reader depth s) (a, rest)

section
variable {α β : Type} {x : Result α} {r : α × List Piece}

theorem Reaches.map {fits : Prop} (h : Reaches fits x r) (f : α × List Piece → β × List Piece) :
    Reaches fits (x.map f) (f r) where
  fit hf := map_eq_ok_iff.mpr ⟨r, h.fit hf, rfl⟩
  tooDeep hn := by
    obtain ⟨f', he, hc⟩ := h.tooDeep hn
    exact ⟨f', by rw [he]; rfl, hc⟩

theorem Reaches.andThen {n m depth : Nat} {y z : Result β} {r' : β × List Piece}
    (hx : Reaches (n ≤ depth) x r) (hy : Reaches (m ≤ depth) y r') (hok : x = .ok r → z = y)
    (herror : ∀ f, x = .error f → ∃ f', z = .error f' ∧ f'.cause = f.cause) :
    Reaches (max n m ≤ depth) z r' := by
  refine ⟨fun hfit => ?_, fun hdeep => ?_⟩
  · obtain ⟨hfirst, hlater⟩ := Nat.max_le.mp hfit
    rw [hok (hx.fit hfirst), hy.fit hlater]
  · by_cases hfirst : n ≤ depth
    · rw [hok (hx.fit hfirst)]
      exact hy.tooDeep fun hlater => hdeep (Nat.max_le.mpr ⟨hfirst, hlater⟩)
    · obtain ⟨f, he, hf⟩ := hx.tooDeep hfirst
      obtain ⟨f', hz, hf'⟩ := herror f he
      exact ⟨f', hz, hf'.trans hf⟩

theorem Reaches.of_eq {n depth : Nat} (hn : n = 0) (h : x = .ok r) : Reaches (n ≤ depth) x r where
  fit _ := h
  tooDeep hd := absurd (hn ▸ Nat.zero_le depth) hd

end

/-- The parts that are left, each after a comma, and what closes them. -/
def following (close : Char) (parts : List (List Char)) (rest : List Piece) : List Piece :=
  (parts.flatMap ([','] ++ ·)).map .char ++ .char close :: rest

theorem following_cons (close : Char) (part : List Char) (parts : List (List Char))
    (rest : List Piece) : following close (part :: parts) rest =
      .char ',' :: (part.map .char ++ following close parts rest) := by
  simp [following]

theorem following_starts (close : Char) (hs : isSpace (.char close) = false)
    (hc : continuesNumber (.char close) = false) (parts : List (List Char)) (rest : List Piece) :
    Ends (following close parts rest) ∧
      skipSpace (following close parts rest) = following close parts rest := by
  cases parts with
  | nil => exact ⟨ends_cons hc rest, skipSpace_cons hs rest⟩
  | cons part parts =>
    rw [following_cons]
    exact ⟨ends_cons rfl _, skipSpace_cons rfl _⟩

/-- These parts are left of a container: all of them, behind its opening bracket, or those behind
the ones that have been read. -/
def Awaits (close : Char) (first : Bool) (parts : List (List Char)) (rest s : List Piece) : Prop :=
  if first then
    ∃ blank, Blank blank ∧ s = (blank ++ (separated [','] parts ++ [close])).map .char ++ rest
  else skipSpace s = following close parts rest

section
variable {close : Char} {first : Bool} {part : List Char} {parts : List (List Char)}
  {s rest : List Piece}

theorem awaits_opened {blank : List Char} (hblank : Blank blank) :
    Awaits close true parts rest
      ((blank ++ (separated [','] parts ++ [close])).map .char ++ rest) :=
  (if_pos rfl).mpr ⟨blank, hblank, rfl⟩

theorem awaits_following (hs : isSpace (.char close) = false)
    (hc : continuesNumber (.char close) = false) {after : List Char} (hafter : Blank after) :
    Awaits close false parts rest (after.map .char ++ following close parts rest) :=
  (skipSpace_blank hafter _).trans (following_starts close hs hc parts rest).2

theorem Awaits.closing (hs : isSpace (.char close) = false) (h : Awaits close first [] rest s) :
    skipSpace s = .char close :: rest := by
  cases first with
  | true =>
    obtain ⟨blank, hblank, rfl⟩ := h
    rw [List.map_append, List.append_assoc, skipSpace_blank hblank]
    exact skipSpace_cons hs rest
  | false => exact h

theorem Awaits.opening (h : Awaits close true (part :: parts) rest s) :
    skipSpace s = skipSpace (part.map .char ++ following close parts rest) := by
  obtain ⟨blank, hblank, rfl⟩ := h
  have htext : (blank ++ (separated [','] (part :: parts) ++ [close])).map Piece.char ++ rest =
      blank.map .char ++ (part.map .char ++ following close parts rest) := by
    simp [separated, following]
  rw [htext, skipSpace_blank hblank]

theorem Awaits.comma (h : Awaits close false (part :: parts) rest s) :
    skipSpace s = .char ',' :: (part.map .char ++ following close parts rest) :=
  Eq.trans h (following_cons close part parts rest)

end

theorem length_le_separated (parts : List (List Char)) :
    parts.length ≤ (separated [','] parts).length + 1 := by
  have hcommas (parts : List (List Char)) :
      parts.length ≤ (parts.flatMap ([','] ++ ·)).length := by
    induction parts with
    | nil => exact Nat.le_refl 0
    | cons part parts ih =>
      rw [List.flatMap_cons, List.length_append, List.length_append, List.length_cons,
        List.length_singleton]
      omega
  cases parts with
  | nil => exact Nat.zero_le _
  | cons part parts =>
    have hrest := hcommas parts
    rw [separated, List.length_append, List.length_cons]
    omega

theorem length_lt_opened (blank : List Char) (parts : List (List Char)) (close : Char)
    (rest : List Piece) : parts.length <
      ((blank ++ (separated [','] parts ++ [close])).map Piece.char ++ rest).length + 1 := by
  have hparts := length_le_separated parts
  simp only [List.length_append, List.length_map, List.length_singleton]
  omega

/-- The parts of a list that are read as its items; the deepest of them nests so deep. -/
inductive ItemsRecovered {α : Type} (item : Nat → List Piece → Result α) :
    Nat → List (List Char) → List α → Prop where
  | nil : ItemsRecovered item 0 [] []
  | cons {n m : Nat} {core part : List Char} {parts : List (List Char)} {a : α} {as : List α}
    (hpart : Padded core part) (h : Recovers item n core a)
    (hrest : ItemsRecovered item m parts as) :
    ItemsRecovered item (max n m) (part :: parts) (a :: as)

section
variable {α : Type} {item : Nat → List Piece → Result α} {n m depth : Nat} {first : Bool}
  {core part : List Char} {parts : List (List Char)} {a : α} {as : List α} {s rest : List Piece}

theorem nextItem_close (hs : Awaits ']' first [] rest s) :
    nextItem first s = .ok (false, .char ']' :: rest) := by
  simp only [nextItem, hs.closing rfl]

theorem nextItem_part (hs : Awaits ']' first (part :: parts) rest s) (hpart : Padded core part)
    (h : Recovers item n core a) : ∃ text after, nextItem first s = .ok (true, text) ∧
      (∀ depth, Reaches (n ≤ depth) (item depth text) (a, after)) ∧
      Awaits ']' false parts rest after := by
  obtain ⟨c, tail, rfl, hc, hclose⟩ := h.starts
  obtain ⟨after, hafter, hskip⟩ := hpart.skipSpace rfl hc
  have hends := (following_starts ']' rfl rfl parts rest).1.blank hafter
  have hitem := hskip (following ']' parts rest)
  refine ⟨_, _, ?_, fun depth => h.reaches depth _ _ hends (skipSpace_cons hc _),
    awaits_following rfl rfl hafter⟩
  cases first with
  | true =>
    have hnext := hs.opening.trans hitem
    simp only [List.map_cons, List.cons_append] at hnext
    simp [nextItem, hnext, hclose]
  | false =>
    have hnext := hs.comma
    simp only [List.map_cons, List.cons_append] at hitem
    simp [nextItem, hnext, afterListComma, hitem, hclose, Except.map]

theorem readItemsFrom_recovered (h : ItemsRecovered item n parts as) {budget index : Nat}
    {read : List α} (hb : parts.length < budget) (hs : Awaits ']' (index == 0) parts rest s) :
    Reaches (n ≤ depth) (readItemsFrom (item depth) budget index read s)
      (read.reverse ++ as, rest) := by
  obtain ⟨budget, rfl⟩ : ∃ b, budget = b + 1 := ⟨budget - 1, by omega⟩
  induction h generalizing budget index read s with
  | nil =>
    refine .of_eq rfl ?_
    rw [readItemsFrom, nextItem_close hs]
    simp
  | @cons n m core part parts a as hpart h hrest ih =>
    rw [List.length_cons] at hb
    obtain ⟨budget, rfl⟩ : ∃ b, budget = b + 1 := ⟨budget - 1, by omega⟩
    obtain ⟨text, after, hnext, hitem, hafter⟩ := nextItem_part hs hpart h
    have hnext' : Awaits ']' (index + 1 == 0) parts rest after := hafter
    have hlater : Reaches (m ≤ depth) (readItemsFrom (item depth) (budget + 1) (index + 1)
        (a :: read) after) ((a :: read).reverse ++ as, rest) := ih hnext' budget (by omega)
    rw [List.reverse_cons, List.append_assoc, List.singleton_append] at hlater
    refine (hitem depth).andThen hlater (fun he => ?_) (fun f he => ?_)
    · rw [readItemsFrom, hnext]
      simp only [he]
    · refine ⟨f.under (.index index), ?_, rfl⟩
      rw [readItemsFrom, hnext]
      simp only [he]

theorem readItems_recovered (h : ItemsRecovered item n parts as) {blank : List Char}
    (hblank : Blank blank) (depth : Nat) (rest : List Piece) :
    Reaches (n ≤ depth) (readItems (item depth)
      ((blank ++ (separated [','] parts ++ [']'])).map .char ++ rest)) (as, rest) :=
  readItemsFrom_recovered h (length_lt_opened blank parts ']' rest) (awaits_opened hblank)

end

def MemberRecovered {σ : Type} (member : Nat → String → σ → List Piece → Result σ) (n : Nat)
    (key : String) (read : σ) (part : List Char) (next : σ) : Prop :=
  ∃ after, Blank after ∧ ∀ depth s rest, Ends rest →
    skipSpace s = .char ':' :: (part.map .char ++ rest) →
    Reaches (n ≤ depth) (member depth key read s) (next, after.map .char ++ rest)

/-- The parts of an object that are read as its members, one after the other; the deepest of them
nests so deep. -/
inductive MembersRecovered {σ : Type} (member : Nat → String → σ → List Piece → Result σ) :
    Nat → σ → List (List Char) → σ → Prop where
  | nil (read : σ) : MembersRecovered member 0 read [] read
  | cons {n m : Nat} {key : String} {name part : List Char} {parts : List (List Char)}
    {read next all : σ} (hname : Padded (quoted key.toList) name)
    (h : MemberRecovered member n key read part next)
    (hrest : MembersRecovered member m next parts all) :
    MembersRecovered member (max n m) read ((name ++ ':' :: part) :: parts) all

section
variable {σ : Type} {member : Nat → String → σ → List Piece → Result σ} {n m depth : Nat}
  {first : Bool} {key : String} {name part : List Char} {parts : List (List Char)}
  {read next all : σ} {s rest : List Piece}

theorem nextKey_close (hs : Awaits '}' first [] rest s) :
    nextKey first s = .ok (none, .char '}' :: rest) := by
  simp only [nextKey, hs.closing rfl]

theorem nextKey_part (hs : Awaits '}' first ((name ++ ':' :: part) :: parts) rest s)
    (hname : Padded (quoted key.toList) name) : ∃ text, nextKey first s = .ok (some key, text) ∧
      skipSpace text = .char ':' :: (part.map .char ++ following '}' parts rest) := by
  obtain ⟨after, hafter, hskip⟩ := hname.skipSpace rfl rfl
  have hkey : skipSpace ((name ++ ':' :: part).map .char ++ following '}' parts rest) =
      .char '"' :: ((key.toList.flatMap escape).map .char ++ .char '"' ::
        (after.map .char ++ .char ':' :: (part.map .char ++ following '}' parts rest))) := by
    have he := hskip (.char ':' :: (part.map .char ++ following '}' parts rest))
    simpa [quoted] using he
  refine ⟨after.map .char ++ .char ':' :: (part.map .char ++ following '}' parts rest), ?_, ?_⟩
  · cases first with
    | true =>
      rw [nextKey_eq (hs.opening.trans hkey) (by decide)]
      simp [keyText, bind, Except.bind, readString_written, pure, Except.pure]
    | false =>
      have hcomma := hs.comma
      generalize (name ++ ':' :: part).map Piece.char ++ following '}' parts rest = text
        at hkey hcomma
      rw [nextKey_eq hcomma (by decide)]
      simp [keyText, afterObjectComma, hkey, bind, Except.bind, readString_written, pure,
        Except.pure]
  · rw [skipSpace_blank hafter]
    exact skipSpace_cons rfl _

theorem readMembersFrom_recovered (h : MembersRecovered member n read parts all) {budget : Nat}
    (hb : parts.length < budget) (hs : Awaits '}' first parts rest s) :
    Reaches (n ≤ depth) (readMembersFrom (member depth) budget first read s)
      (all, .char '}' :: rest) := by
  obtain ⟨budget, rfl⟩ : ∃ b, budget = b + 1 := ⟨budget - 1, by omega⟩
  induction h generalizing budget first s with
  | nil read =>
    refine .of_eq rfl ?_
    rw [readMembersFrom, nextKey_close hs]
  | @cons n m key name part parts read next all hname h hrest ih =>
    rw [List.length_cons] at hb
    obtain ⟨budget, rfl⟩ : ∃ b, budget = b + 1 := ⟨budget - 1, by omega⟩
    obtain ⟨text, hkey, hcolon⟩ := nextKey_part hs hname
    obtain ⟨after, hafter, hread⟩ := h
    have hmember := hread depth text _ (following_starts '}' rfl rfl parts rest).1 hcolon
    have hlater := ih (awaits_following rfl rfl hafter) budget (by omega)
    refine hmember.andThen hlater (fun he => ?_) (fun f he => ?_)
    · rw [readMembersFrom, hkey]
      simp only [he]
    · refine ⟨f, ?_, rfl⟩
      rw [readMembersFrom, hkey]
      simp only [he]

theorem readMembers_recovered (h : MembersRecovered member n read parts all) {blank : List Char}
    (hblank : Blank blank) (depth : Nat) (rest : List Piece) :
    Reaches (n ≤ depth) (readMembers (member depth) read
      ((blank ++ (separated [','] parts ++ ['}'])).map .char ++ rest))
      (all, .char '}' :: rest) :=
  readMembersFrom_recovered h (length_lt_opened blank parts '}' rest) (awaits_opened hblank)

end

theorem readMemberValue_recovered {α : Type} {value : Nat → List Piece → Result α} {n : Nat}
    {core part : List Char} {a : α} (h : Recovers value n core a) (hpart : Padded core part) :
    ∃ after, Blank after ∧ ∀ depth key s rest, Ends rest →
      skipSpace s = .char ':' :: (part.map .char ++ rest) →
      Reaches (n ≤ depth) (readMemberValue (value depth) key s) (a, after.map .char ++ rest) := by
  obtain ⟨c, tail, hcore, hc, -⟩ := h.starts
  obtain ⟨after, hafter, hskip⟩ := hpart.skipSpace hcore hc
  refine ⟨after, hafter, fun depth key s rest hr hs => ?_⟩
  have hvalue := h.reaches depth _ _ (hr.blank hafter) (hskip rest)
  have hcolon : readColon s = .ok (part.map .char ++ rest) := by simp only [readColon, hs]
  unfold readMemberValue
  rw [hcolon]
  refine ⟨fun hfit => by simp only [hvalue.fit hfit], fun hdeep => ?_⟩
  obtain ⟨f, he, hf⟩ := hvalue.tooDeep hdeep
  simp only [he]
  exact ⟨_, rfl, hf⟩

section
variable {α : Type} {reader : Nat → List Piece → Result α} {n : Nat} {a : α}

theorem Recovers.of_bracketed {c : Char} {inner : List Char} (hc : isSpace (.char c) = false)
    (hne : c ≠ ']')
    (hzero : ∀ s tail, skipSpace s = .char c :: tail → TooDeep (reader 0 s))
    (hsucc : ∀ depth s rest, skipSpace s = .char c :: (inner.map .char ++ rest) →
      Reaches (n ≤ depth) (reader (depth + 1) s) (a, rest)) :
    Recovers reader (n + 1) (c :: inner) a where
  starts := ⟨c, inner, rfl, hc, hne⟩
  reaches depth s rest _ hs := by
    cases depth with
    | zero => exact ⟨fun hfit => absurd hfit (by omega), fun _ => hzero s _ hs⟩
    | succ depth =>
      have h := hsucc depth s rest hs
      exact ⟨fun hfit => h.fit (by omega), fun hdeep => h.tooDeep (by omega)⟩

theorem Recovers.of_scalar {core : List Char} {c : Char} {tail : List Char}
    (hcore : core = c :: tail) (hc : isSpace (.char c) = false) (hne : c ≠ ']')
    (h : ∀ depth s rest, Ends rest → skipSpace s = core.map .char ++ rest →
      reader depth s = .ok (a, rest)) : Recovers reader 0 core a where
  starts := ⟨c, tail, hcore, hc, hne⟩
  reaches depth s rest hr hs := .of_eq rfl (h depth s rest hr hs)

end

/-- A reader that holds a tree as it is, if all keys in the tree are admitted. -/
structure HoldsTrees (reader : Nat → List Piece → Result Value)
    (member : Nat → String → Object → List Piece → Result Object) (Admits : String → Prop) :
    Prop where
  scalar : ∀ {depth s}, (∀ tail, skipSpace s ≠ .char '[' :: tail) →
    (∀ tail, skipSpace s ≠ .char '{' :: tail) → reader depth s = readScalar (skipSpace s)
  array : ∀ {depth s tail}, skipSpace s = .char '[' :: tail →
    reader (depth + 1) s = (readItems (reader depth) tail).map fun r => (.array r.1, r.2)
  object : ∀ {depth s tail}, skipSpace s = .char '{' :: tail →
    reader (depth + 1) s =
      (readMembers (member depth) .empty tail).map fun r => (.object r.1, r.2.drop 1)
  arrayTooDeep : ∀ {s tail}, skipSpace s = .char '[' :: tail → TooDeep (reader 0 s)
  objectTooDeep : ∀ {s tail}, skipSpace s = .char '{' :: tail → TooDeep (reader 0 s)
  member : ∀ {depth key o s}, Admits key → member depth key o s =
    (readMemberValue (reader depth) key s).map fun r => (o.insert key r.1, r.2)

section
variable {reader : Nat → List Piece → Result Value}
  {member : Nat → String → Object → List Piece → Result Object} {Admits : String → Prop}

namespace HoldsTrees

variable (hr : HoldsTrees reader member Admits)
include hr

theorem scalar_recovered {core : List Char} {v : Value} {c : Char} {tail : List Char}
    (hcore : core = c :: tail) (hc : isSpace (.char c) = false)
    (hne : ¬ c ∈ ['[', ']', '{'])
    (h : ∀ rest, Ends rest → readScalar (core.map .char ++ rest) = .ok (v, rest)) :
    Recovers reader 0 core v := by
  simp only [List.mem_cons, List.not_mem_nil, or_false, not_or] at hne
  obtain ⟨hlist, hclose, hobject⟩ := hne
  refine .of_scalar hcore hc hclose fun depth s rest hends hs => ?_
  rw [hr.scalar, hs, h rest hends]
  · intro tail' ht
    rw [hs, hcore] at ht
    cases ht
    exact hlist rfl
  · intro tail' ht
    rw [hs, hcore] at ht
    cases ht
    exact hobject rfl

theorem array_recovered {n : Nat} {parts : List (List Char)} {vs : List Value} {blank : List Char}
    (h : ItemsRecovered reader n parts vs) (hblank : Blank blank) :
    Recovers reader (n + 1) ('[' :: (blank ++ (separated [','] parts ++ [']'])))
      (.array vs) := by
  refine .of_bracketed rfl (by decide) (fun s tail hs => hr.arrayTooDeep hs)
    fun depth s rest hs => ?_
  rw [hr.array hs]
  exact (readItems_recovered h hblank depth rest).map fun r => (Value.array r.1, r.2)

theorem object_recovered {n : Nat} {parts : List (List Char)} {o : Object} {blank : List Char}
    (h : MembersRecovered member n .empty parts o) (hblank : Blank blank) :
    Recovers reader (n + 1) ('{' :: (blank ++ (separated [','] parts ++ ['}'])))
      (.object o) := by
  refine .of_bracketed rfl (by decide) (fun s tail hs => hr.objectTooDeep hs)
    fun depth s rest hs => ?_
  rw [hr.object hs]
  exact (readMembers_recovered h hblank depth rest).map fun r => (Value.object r.1, r.2.drop 1)

theorem number_recovered {n : Number} (h : n.IsWhole) :
    Recovers reader 0 (numberText n) (.number n) := by
  obtain ⟨c, tail, hcore, hc⟩ := numberText_starts h
  have hspace : isSpace (.char c) = false := by
    cases hs : isSpace (.char c) with
    | false => rfl
    | true =>
      simp only [isSpace, Bool.or_eq_true, beq_iff_eq] at hs
      rcases hs with ((rfl | rfl) | rfl) | rfl <;> revert hc <;> decide
  have hbracket : ¬ c ∈ ['[', ']', '{'] := by
    simp only [List.mem_cons, List.not_mem_nil, or_false]
    rintro (rfl | rfl | rfl) <;> revert hc <;> decide
  exact hr.scalar_recovered hcore hspace hbracket fun rest hends => readScalar_number h hends

end HoldsTrees

theorem items_recovered {α : Type} {reader : Nat → List Piece → Result α} {nest : Json → Nat}
    {R : Json → α → Prop} {items : List Json} {parts : List (List Char)} {as : List α}
    (h : ∀ v ∈ items, ∀ core a, Spells v core → R v a → Recovers reader (nest v) core a)
    (hs : ItemsSpelled items parts) (hr : List.Forall₂ R items as) :
    ItemsRecovered reader (deepest nest items) parts as := by
  induction hr generalizing parts with
  | nil =>
    cases hs
    exact .nil
  | @cons v a rest as ha _ ih =>
    obtain ⟨core, part, more, hcore, hpart, hmore, rfl⟩ := hs
    obtain ⟨hv, hrest⟩ := List.forall_mem_cons.mp h
    exact .cons hpart (hv core a hcore ha) (ih hrest hmore)

theorem members_recovered {members : List (String × Json)} {parts : List (List Char)}
    (hmember : ∀ m ∈ members, ∀ {depth o s}, member depth m.1 o s =
      (readMemberValue (reader depth) m.1 s).map fun r => (o.insert m.1 r.1, r.2))
    (h : ∀ m ∈ members, ∀ core, Spells m.2 core → Recovers reader m.2.nesting core (hold m.2))
    (hs : MembersSpelled members parts) (read : Object) :
    MembersRecovered member (deepest (fun m => m.2.nesting) members) read parts
      ((holdMembers members).foldl (fun o m => o.insert m.1 m.2) read) := by
  induction members generalizing parts read with
  | nil =>
    cases hs
    exact .nil read
  | cons m rest ih =>
    obtain ⟨name, core, part, more, hname, hcore, hpart, hmore, rfl⟩ := hs
    obtain ⟨hm, hrest⟩ := List.forall_mem_cons.mp h
    obtain ⟨after, hafter, hvalue⟩ := readMemberValue_recovered (hm core hcore) hpart
    have hread : MemberRecovered member m.2.nesting m.1 read part (read.insert m.1 (hold m.2)) := by
      refine ⟨after, hafter, fun depth s end' hends hs => ?_⟩
      rw [hmember m List.mem_cons_self]
      exact (hvalue depth m.1 s end' hends hs).map fun r => (read.insert m.1 r.1, r.2)
    exact .cons hname hread
      (ih (fun m hm => hmember m (List.mem_cons_of_mem _ hm)) hrest hmore _)

/-- Whatever else a reader is for, it reads the text of such a tree as what is held of the tree. -/
theorem HoldsTrees.recovered (hr : HoldsTrees reader member Admits) {t : Json} {core : List Char}
    (hk : Keyed Admits t) (hn : ∀ n ∈ t.numbers, n.IsWhole) (hs : Spells t core) :
    Recovers reader t.nesting core (hold t) := by
  induction hk generalizing core with
  | null =>
    cases hs
    exact hr.scalar_recovered rfl rfl (by decide) fun rest _ => readScalar_null rest
  | bool b =>
    cases hs
    have hread (rest : List Piece) (_ : Ends rest) := readScalar_bool b rest
    cases b with
    | true => exact hr.scalar_recovered rfl rfl (by decide) hread
    | false => exact hr.scalar_recovered rfl rfl (by decide) hread
  | number n =>
    cases hs
    exact hr.number_recovered (hn n List.mem_cons_self)
  | string t =>
    cases hs
    exact hr.scalar_recovered rfl rfl (by decide) fun rest _ => readScalar_string t rest
  | @array items _ ih =>
    obtain ⟨blank, parts, hblank, hparts, rfl⟩ := hs
    have hnumbers := forall_itemNumbers_iff.mp hn
    rw [nesting, itemsNesting_eq, hold, holdItems_eq]
    have hheld : List.Forall₂ (fun v w => w = hold v) items (items.map hold) :=
      List.forall₂_map_right_iff.mpr (List.forall₂_same.mpr fun _ _ => rfl)
    refine hr.array_recovered (items_recovered (fun v hv core w hc hw => ?_) hparts hheld) hblank
    rw [hw]
    exact ih v hv (hnumbers v hv) hc
  | @object members hkeys _ ih =>
    obtain ⟨blank, parts, hblank, hparts, rfl⟩ := hs
    have hnumbers := forall_memberNumbers_iff.mp hn
    rw [nesting, membersNesting_eq, hold]
    exact hr.object_recovered (members_recovered (fun m hm => hr.member (hkeys m hm))
      (fun m hm core hc => ih m hm (hnumbers m hm) hc) hparts .empty) hblank

end

theorem readValue_holdsTrees : HoldsTrees readValue readAny fun _ => True where
  scalar hlist hobject := by
    unfold readValue
    split
    · next hs => exact absurd hs (hlist _)
    · next hs => exact absurd hs (hobject _)
    · rfl
  array hs := by
    unfold readValue
    simp only [hs]
  object {depth s tail} hs := by
    have hobject : readObject (readValue depth) tail =
        (readMembers (readAny depth) .empty tail).map fun r => (r.1, r.2.drop 1) := rfl
    unfold readValue
    simp only [hs, hobject]
    cases readMembers (readAny depth) .empty tail <;> rfl
  arrayTooDeep hs := by
    unfold readValue
    simp only [hs]
    exact ⟨_, rfl, rfl⟩
  objectTooDeep hs := by
    unfold readValue
    simp only [hs]
    exact ⟨_, rfl, rfl⟩
  member _ := rfl

theorem spelled_recovered {t : Json} {core : List Char} (hn : ∀ n ∈ t.numbers, n.IsWhole)
    (hs : Spells t core) : Recovers readValue t.nesting core (hold t) :=
  readValue_holdsTrees.recovered (keyed_of_forall (fun _ => trivial) t) hn hs

theorem readEnd_blank {s : List Char} (h : Blank s) : readEnd (s.map .char) = .ok () := by
  have hblank : skipSpace (s.map .char) = [] := by simpa [skipSpace] using skipSpace_blank h []
  rw [readEnd, hblank]

theorem Recovers.readWhole {α : Type} {reader : Nat → List Piece → Result α} {n : Nat}
    {core text : List Char} {a : α} (h : Recovers reader n core a) (htext : Padded core text)
    (depth : Nat) : (n ≤ depth → Json.readWhole (reader depth) (text.map .char) = .ok a) ∧
      (depth < n → ∃ f, Json.readWhole (reader depth) (text.map .char) = .error f ∧
        f.cause = .flaw .tooDeep) := by
  obtain ⟨c, tail, hcore, hc, -⟩ := h.starts
  obtain ⟨after, hafter, hskip⟩ := htext.skipSpace hcore hc
  have hread := h.reaches depth (text.map .char) (after.map .char)
    (by simpa using Ends.blank hafter ends_nil) (by simpa using hskip [])
  refine ⟨fun hfit => ?_, fun hdeep => ?_⟩
  · exact readWhole_eq_ok_iff.mpr ⟨_, hread.fit hfit, readEnd_blank hafter⟩
  · obtain ⟨f, he, hf⟩ := hread.tooDeep (Nat.not_le.mpr hdeep)
    refine ⟨f.report (text.map .char), ?_, hf⟩
    rw [Json.readWhole, he]
    rfl

end ToolPipeline.Json
