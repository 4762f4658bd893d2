import ToolPipeline.Codec.Base64
import ToolPipeline.Proofs.Success
import ToolPipeline.Proofs.Text.Parts

/-! Base64 texts. Every sequence of octets has one text, and a text is decoded if and only if it is
the text of some octets; the octets are then those. -/

namespace ToolPipeline.Base64

open Text

def alphabet : List Char :=
  "ABCDEFGHIJKLMNOPQRSTUVWXYZabcdefghijklmnopqrstuvwxyz0123456789+/".toList

def padding : Char := '='

def symbol (v : Nat) : Char := alphabet.getD v padding

def group (a b c : UInt8) : List Char :=
  let n := a.toNat * 65536 + b.toNat * 256 + c.toNat
  [symbol (n / 262144), symbol (n / 4096 % 64), symbol (n / 64 % 64), symbol (n % 64)]

/-- The text of octets: four symbols for every three of them, where padding stands for the symbols
that the last group has no octets for. -/
def encode : List UInt8 → List Char
  | [] => []
  | [a] => (group a 0 0).take 2 ++ [padding, padding]
  | [a, b] => (group a b 0).take 3 ++ [padding]
  | a :: b :: c :: rest => group a b c ++ encode rest

section
variable {v : Nat} {o : UInt8} {c : Char} {b : List UInt8}

theorem symbolValue?_symbol : ∀ v < 64, symbolValue? (octetOf (symbol v)) = some v := by
  decide +kernel

theorem symbolValue?_pad : symbolValue? pad = none := by decide

theorem octetOf_padding : octetOf padding = pad := by decide

theorem symbolValue?_eq_some_iff :
    symbolValue? o = some v ↔ v < 64 ∧ o = octetOf (symbol v) := by
  have hall : ∀ n : Fin 256, ∀ v ∈ symbolValue? (UInt8.ofFin n),
      v < 64 ∧ UInt8.ofFin n = octetOf (symbol v) := by
    decide +kernel
  constructor
  · exact fun h => hall o.toFin v h
  · rintro ⟨hv, rfl⟩
    exact symbolValue?_symbol v hv

theorem symbol_mem (v : Nat) : symbol v ∈ padding :: alphabet := by
  unfold symbol
  rw [List.getD_eq_getElem?_getD]
  cases hv : alphabet[v]? with
  | none => exact List.mem_cons_self
  | some c => exact List.mem_cons_of_mem _ (List.mem_of_getElem? hv)

theorem mem_encode (h : c ∈ encode b) : c ∈ padding :: alphabet := by
  have hgroup {x y z : UInt8} (hc : c ∈ group x y z) : c ∈ padding :: alphabet := by
    simp only [group, List.mem_cons, List.not_mem_nil, or_false] at hc
    rcases hc with rfl | rfl | rfl | rfl <;> exact symbol_mem _
  have hpadding (hc : c = padding) : c ∈ padding :: alphabet := hc ▸ List.mem_cons_self
  fun_induction encode b with
  | case1 => cases h
  | case2 a =>
    rcases List.mem_append.mp h with hc | hc
    · exact hgroup (List.mem_of_mem_take hc)
    · exact hpadding (by simpa using hc)
  | case3 a b =>
    rcases List.mem_append.mp h with hc | hc
    · exact hgroup (List.mem_of_mem_take hc)
    · exact hpadding (by simpa using hc)
  | case4 a b c rest ih =>
    rcases List.mem_append.mp h with hc | hc
    · exact hgroup hc
    · exact ih hc

theorem plain_of_mem_encode (h : c ∈ encode b) :
    isAscii c = true ∧ isBlank c = false ∧ c ≠ ':' := by
  have hall : (padding :: alphabet).all
      (fun c => isAscii c && (!isBlank c && !decide (c = ':'))) = true := by
    decide +kernel
  simpa using List.all_eq_true.mp hall c (mem_encode h)

end

/-- The values of symbols in groups of four. -/
inductive Quads : List Nat → Prop
  | nil : Quads []
  | cons {u v w x : Nat} {rest : List Nat} : u < 64 → v < 64 → w < 64 → x < 64 → Quads rest →
    Quads (u :: v :: w :: x :: rest)

def symbolOctets (values : List Nat) : List UInt8 := values.map fun v => octetOf (symbol v)

@[simp]
theorem symbolOctets_cons (v : Nat) (values : List Nat) :
    symbolOctets (v :: values) = octetOf (symbol v) :: symbolOctets values := rfl

def octets (s : List Char) : List UInt8 := s.map octetOf

section
variable {values : List Nat} {last : List UInt8}

theorem Quads.of_length (hfits : ∀ v ∈ values, v < 64) (hlen : values.length % 4 = 0) :
    Quads values := by
  fun_induction joinQuads values with
  | case1 u v w x rest n ih =>
    simp only [List.forall_mem_cons] at hfits
    obtain ⟨hu, hv, hw, hx, hrest⟩ := hfits
    simp only [List.length_cons] at hlen
    exact .cons hu hv hw hx (ih hrest (by omega))
  | case2 values hn =>
    match values, hlen with
    | [], _ => exact .nil
    | u :: v :: w :: x :: rest, _ => exact absurd rfl (hn u v w x rest)

theorem Quads.fits (h : Quads values) : ∀ v ∈ values, v < 64 := by
  induction h with
  | nil => nofun
  | cons hu hv hw hx _ ih =>
    simp only [List.forall_mem_cons]
    exact ⟨hu, hv, hw, hx, ih⟩

theorem Quads.length_mod (h : Quads values) : values.length % 4 = 0 := by
  induction h with
  | nil => rfl
  | cons _ _ _ _ _ ih =>
    simp only [List.length_cons]
    omega

theorem group_of_values {u v w x : Nat} (hu : u < 64) (hv : v < 64) (hw : w < 64) (hx : x < 64) :
    let n := ((u * 64 + v) * 64 + w) * 64 + x
    group (UInt8.ofNat (n / 65536)) (UInt8.ofNat (n / 256)) (UInt8.ofNat n) =
      [symbol u, symbol v, symbol w, symbol x] := by
  intro n
  have hn : n / 65536 % 256 * 65536 + n / 256 % 256 * 256 + n % 256 = n := by omega
  have h₁ : n / 262144 = u := by omega
  have h₂ : n / 4096 % 64 = v := by omega
  have h₃ : n / 64 % 64 = w := by omega
  have h₄ : n % 64 = x := by omega
  simp only [group, UInt8.toNat_ofNat', Nat.reducePow, hn, h₁, h₂, h₃, h₄]

theorem Quads.encode_joinQuads (h : Quads values) (last : List UInt8) :
    encode (joinQuads values ++ last) = values.map symbol ++ encode last := by
  induction h with
  | nil => rfl
  | cons hu hv hw hx _ ih =>
    simp only [joinQuads, List.cons_append, encode, group_of_values hu hv hw hx, ih, List.map_cons,
      List.nil_append]

theorem exists_quad (a b c : UInt8) :
    ∃ u v w x, u < 64 ∧ v < 64 ∧ w < 64 ∧ x < 64 ∧
      ∀ rest, joinQuads (u :: v :: w :: x :: rest) = a :: b :: c :: joinQuads rest := by
  let n := a.toNat * 65536 + b.toNat * 256 + c.toNat
  have ha := a.toNat_lt
  have hb := b.toNat_lt
  have hc := c.toNat_lt
  refine ⟨n / 262144, n / 4096 % 64, n / 64 % 64, n % 64, by omega, by omega, by omega, by omega,
    fun rest => ?_⟩
  have hn : ((n / 262144 * 64 + n / 4096 % 64) * 64 + n / 64 % 64) * 64 + n % 64 = n := by omega
  rw [joinQuads, hn]
  refine congrArg₂ _ ?_ (congrArg₂ _ ?_ (congrArg₂ _ ?_ rfl)) <;> refine UInt8.toNat_inj.mp ?_ <;>
    simp only [UInt8.toNat_ofNat', Nat.reducePow] <;> omega

theorem exists_quads {b : List UInt8} (hb : b ≠ []) :
    ∃ values last, Quads values ∧ b = joinQuads values ++ last ∧ last ≠ [] ∧ last.length ≤ 3 := by
  fun_induction encode b with
  | case1 => exact absurd rfl hb
  | case2 a => exact ⟨[], [a], .nil, rfl, by simp, by simp⟩
  | case3 a b => exact ⟨[], [a, b], .nil, rfl, by simp, by simp⟩
  | case4 a b c rest ih =>
    by_cases hr : rest = []
    · exact ⟨[], [a, b, c], .nil, by rw [hr]; rfl, by simp, by simp⟩
    · obtain ⟨values, last, hq, rfl, hne, hlen⟩ := ih hr
      obtain ⟨u, v, w, x, hu, hv, hw, hx, hj⟩ := exists_quad a b c
      refine ⟨u :: v :: w :: x :: values, last, .cons hu hv hw hx hq, ?_, hne, hlen⟩
      rw [hj, List.cons_append, List.cons_append, List.cons_append]

theorem bodyValues_symbolOctets {offset : Nat} (hall : ∀ v ∈ values, v < 64) :
    bodyValues offset (symbolOctets values) = .ok values := by
  induction values generalizing offset with
  | nil => rfl
  | cons v values ih =>
    obtain ⟨hv, hall⟩ := List.forall_mem_cons.mp hall
    rw [symbolOctets_cons, bodyValues, symbolValue?_symbol v hv]
    simp only [ih hall, Except.map]

theorem eq_of_bodyValues {offset : Nat} {s : List UInt8} (h : bodyValues offset s = .ok values) :
    (∀ v ∈ values, v < 64) ∧ s = symbolOctets values := by
  induction s generalizing offset values with
  | nil =>
    cases h
    exact ⟨nofun, rfl⟩
  | cons o s ih =>
    unfold bodyValues at h
    split at h
    · cases h
    · next v hv =>
      obtain ⟨hlt, rfl⟩ := symbolValue?_eq_some_iff.mp hv
      obtain ⟨values, hvalues, rfl⟩ := map_eq_ok_iff.mp h
      obtain ⟨hall, rfl⟩ := ih hvalues
      exact ⟨List.forall_mem_cons.mpr ⟨hlt, hall⟩, rfl⟩

theorem pad_ne_symbol {v : Nat} (hv : v < 64) : octetOf (symbol v) ≠ pad := fun he => by
  have hp := symbolValue?_symbol v hv
  rw [he, symbolValue?_pad] at hp
  cases hp

theorem eq_of_tailValues {offset index pads count : Nat} {s : List UInt8}
    (h : tailValues offset index pads s = .ok (values, count)) :
    (∀ v ∈ values, v < 64) ∧ (0 < pads → values = []) ∧
      ∃ more, count = pads + more ∧ s = symbolOctets values ++ List.replicate more pad := by
  induction s generalizing index pads values with
  | nil =>
    cases h
    exact ⟨nofun, fun _ => rfl, 0, rfl, rfl⟩
  | cons o s ih =>
    unfold tailValues at h
    split at h
    · next hpad =>
      split at h
      · cases h
      · obtain ⟨-, hnone, more, rfl, rfl⟩ := ih h
        obtain rfl := hnone (Nat.succ_pos pads)
        exact ⟨nofun, fun _ => rfl, more + 1, Nat.add_right_comm .., by rw [hpad]; rfl⟩
    · split at h
      · cases h
      · next hpads =>
        split at h
        · cases h
        · next v hv =>
          obtain ⟨hlt, rfl⟩ := symbolValue?_eq_some_iff.mp hv
          obtain ⟨⟨vs, p⟩, hvs, he⟩ := map_eq_ok_iff.mp h
          cases he
          obtain ⟨hall, -, more, rfl, rfl⟩ := ih hvs
          exact ⟨List.forall_mem_cons.mpr ⟨hlt, hall⟩, fun hp => absurd hp hpads, more, rfl, rfl⟩

theorem tailValues_replicate {offset index pads : Nat} (hindex : 2 ≤ index) (more : Nat) :
    tailValues offset index pads (List.replicate more pad) = .ok ([], pads + more) := by
  induction more generalizing index pads with
  | zero => rfl
  | succ more ih =>
    rw [List.replicate_succ, tailValues, if_pos rfl, if_neg (Nat.not_lt.mpr hindex),
      ih (Nat.le_succ_of_le hindex), Nat.add_right_comm, Nat.add_assoc]

theorem tailValues_symbolOctets {offset index more : Nat} (hall : ∀ v ∈ values, v < 64)
    (hindex : 2 ≤ index + values.length) :
    tailValues offset index 0 (symbolOctets values ++ List.replicate more pad) =
      .ok (values, more) := by
  induction values generalizing index with
  | nil =>
    have ht : tailValues offset index 0 (List.replicate more pad) = .ok ([], 0 + more) :=
      tailValues_replicate hindex more
    rwa [Nat.zero_add] at ht
  | cons v values ih =>
    obtain ⟨hv, hall⟩ := List.forall_mem_cons.mp hall
    have hlater : 2 ≤ index + 1 + values.length := by
      rw [List.length_cons] at hindex
      omega
    have hrest := ih hall hlater
    rw [symbolOctets_cons, List.cons_append, tailValues, if_neg (pad_ne_symbol hv),
      if_neg (Nat.lt_irrefl 0), symbolValue?_symbol v hv]
    simp only [hrest, Except.map]

def joined (values : List Nat) : Nat := values.foldl (fun n v => n * 64 + v) 0

def lastOctets (values : List Nat) : List UInt8 :=
  let whole := joined values / Nat.pow 2 (6 * values.length % 8)
  ([whole / 65536, whole / 256, whole].drop (4 - values.length)).map UInt8.ofNat

/-- The values of the symbols of a last group: two, three or four, with nothing in the bits that
belong to no octet. -/
structure LastGroup (values : List Nat) : Prop where
  fits : ∀ v ∈ values, v < 64
  atLeast : 2 ≤ values.length
  atMost : values.length ≤ 4
  unused : joined values % Nat.pow 2 (6 * values.length % 8) = 0

theorem throwing_eq_ok_iff {ε α β : Type} {p : Prop} [Decidable p] {e : ε} {f : α → Except ε β}
    {x : Except ε β} {b : β} :
    (if p then throw e >>= f else x) = .ok b ↔ ¬ p ∧ x = .ok b := by
  by_cases hp : p
  · rw [if_pos hp]
    exact iff_of_false nofun fun h => h.1 hp
  · rw [if_neg hp, and_iff_right hp]

theorem decodeTail_eq_ok_iff {offset : Nat} {s : List UInt8} (hs : s ≠ []) :
    decodeTail offset s = .ok last ↔ ∃ values count, tailValues offset 0 0 s = .ok (values, count) ∧
      2 ≤ values.length ∧ (values.length + count) % 4 = 0 ∧
      joined values % Nat.pow 2 (6 * values.length % 8) = 0 ∧ last = lastOctets values := by
  unfold decodeTail
  simp only [bind_eq_ok_iff, if_neg hs, throwing_eq_ok_iff, Prod.exists, Nat.not_lt, not_not, pure,
    Except.pure, Except.ok.injEq, eq_comm (b := last), joined, lastOctets]

theorem ofNat_congr {m n : Nat} (h : m % 256 = n % 256) : UInt8.ofNat m = UInt8.ofNat n := by
  refine UInt8.toNat_inj.mp ?_
  simpa only [UInt8.toNat_ofNat', Nat.reducePow] using h

theorem LastGroup.of_two {v w : Nat} (hv : v < 64) (hw : w < 64) (hn : (v * 64 + w) % 16 = 0) :
    LastGroup [v, w] where
  fits := by simp [hv, hw]
  atLeast := Nat.le_refl 2
  atMost := by simp
  unused := by simpa [joined] using hn

theorem LastGroup.of_three {v w x : Nat} (hv : v < 64) (hw : w < 64) (hx : x < 64)
    (hn : ((v * 64 + w) * 64 + x) % 4 = 0) : LastGroup [v, w, x] where
  fits := by simp [hv, hw, hx]
  atLeast := by simp
  atMost := by simp
  unused := by simpa [joined] using hn

theorem LastGroup.of_four {v w x y : Nat} (hv : v < 64) (hw : w < 64) (hx : x < 64) (hy : y < 64) :
    LastGroup [v, w, x, y] where
  fits := by simp [hv, hw, hx, hy]
  atLeast := by simp
  atMost := Nat.le_refl 4
  unused := by simp [Nat.mod_one]

theorem lastOctets_two (v w : Nat) : lastOctets [v, w] = [UInt8.ofNat ((v * 64 + w) / 16)] := by
  simp [lastOctets, joined]

theorem lastOctets_three (v w x : Nat) :
    lastOctets [v, w, x] = [UInt8.ofNat (((v * 64 + w) * 64 + x) / 4 / 256),
      UInt8.ofNat (((v * 64 + w) * 64 + x) / 4)] := by
  simp [lastOctets, joined]

theorem lastOctets_four (v w x y : Nat) : lastOctets [v, w, x, y] = joinQuads [v, w, x, y] := by
  simp [lastOctets, joined, joinQuads]

theorem LastGroup.encode_eq (h : LastGroup values) :
    encode (lastOctets values) =
      values.map symbol ++ List.replicate (4 - values.length) padding := by
  obtain ⟨hfits, hleast, hmost, hunused⟩ := h
  have hzero : 0 < 64 := Nat.zero_lt_succ 63
  match values, hleast, hmost with
  | [v, w], _, _ =>
    simp only [List.forall_mem_cons] at hfits
    obtain ⟨hv, hw, -⟩ := hfits
    have hunused : (v * 64 + w) % 16 = 0 := by simpa [joined] using hunused
    have hg : group (UInt8.ofNat ((v * 64 + w) / 16)) (UInt8.ofNat 0) (UInt8.ofNat 0) =
        [symbol v, symbol w, symbol 0, symbol 0] := by
      rw [← group_of_values hv hw hzero hzero]
      congr 1 <;> refine ofNat_congr ?_ <;> omega
    rw [lastOctets_two, encode]
    exact congrArg (List.take 2 · ++ [padding, padding]) hg
  | [v, w, x], _, _ =>
    simp only [List.forall_mem_cons] at hfits
    obtain ⟨hv, hw, hx, -⟩ := hfits
    have hunused : ((v * 64 + w) * 64 + x) % 4 = 0 := by simpa [joined] using hunused
    have hg : group (UInt8.ofNat (((v * 64 + w) * 64 + x) / 4 / 256))
        (UInt8.ofNat (((v * 64 + w) * 64 + x) / 4)) (UInt8.ofNat 0) =
          [symbol v, symbol w, symbol x, symbol 0] := by
      rw [← group_of_values hv hw hx hzero]
      congr 1 <;> refine ofNat_congr ?_ <;> omega
    rw [lastOctets_three, encode]
    exact congrArg (List.take 3 · ++ [padding]) hg
  | [v, w, x, y], _, _ =>
    simp only [List.forall_mem_cons] at hfits
    obtain ⟨hv, hw, hx, hy, -⟩ := hfits
    have hq : Quads [v, w, x, y] := .cons hv hw hx hy .nil
    have he := hq.encode_joinQuads []
    rwa [List.append_nil, ← lastOctets_four] at he

theorem exists_lastGroup (hne : last ≠ []) (hlen : last.length ≤ 3) :
    ∃ values, LastGroup values ∧ lastOctets values = last := by
  match last, hne, hlen with
  | [a], _, _ =>
    have ha := a.toNat_lt
    have hn : (a.toNat / 4 * 64 + a.toNat % 4 * 16) / 16 = a.toNat := by omega
    refine ⟨[a.toNat / 4, a.toNat % 4 * 16], .of_two (by omega) (by omega) (by omega), ?_⟩
    rw [lastOctets_two, hn, UInt8.ofNat_toNat]
  | [a, b], _, _ =>
    let n := a.toNat * 256 + b.toNat
    have ha := a.toNat_lt
    have hb := b.toNat_lt
    have hn : ((n / 1024 * 64 + n / 16 % 64) * 64 + n % 16 * 4) / 4 = n := by omega
    have hhigh : n / 256 = a.toNat := by omega
    have hlow : n % 256 = b.toNat % 256 := by omega
    refine ⟨[n / 1024, n / 16 % 64, n % 16 * 4],
      .of_three (by omega) (by omega) (by omega) (by omega), ?_⟩
    rw [lastOctets_three, hn, hhigh, ofNat_congr hlow, UInt8.ofNat_toNat, UInt8.ofNat_toNat]
  | [a, b, c], _, _ =>
    obtain ⟨u, v, w, x, hu, hv, hw, hx, hj⟩ := exists_quad a b c
    exact ⟨[u, v, w, x], .of_four hu hv hw hx, by rw [lastOctets_four, hj]; rfl⟩

theorem octets_encode (hq : Quads values) {tail : List Nat} (hl : LastGroup tail) :
    octets (encode (joinQuads values ++ lastOctets tail)) =
      symbolOctets values ++ (symbolOctets tail ++ List.replicate (4 - tail.length) pad) := by
  rw [hq.encode_joinQuads, hl.encode_eq]
  simp only [octets, symbolOctets, List.map_append, List.map_map, List.map_replicate,
    octetOf_padding]
  rfl

theorem decodeTail_symbolOctets {offset : Nat} {tail : List Nat} (hl : LastGroup tail) :
    decodeTail offset (symbolOctets tail ++ List.replicate (4 - tail.length) pad) =
      .ok (lastOctets tail) := by
  have hmost := hl.atMost
  have hne : symbolOctets tail ++ List.replicate (4 - tail.length) pad ≠ [] := by
    have hleast := hl.atLeast
    refine List.ne_nil_of_length_pos ?_
    rw [List.length_append, symbolOctets, List.length_map]
    omega
  rw [decodeTail_eq_ok_iff hne]
  exact ⟨tail, _, tailValues_symbolOctets hl.fits (by simpa using hl.atLeast), hl.atLeast,
    by omega, hl.unused, rfl⟩

theorem decode_eq_ok_iff {text b : List UInt8} {body : Nat}
    (hbody : (text.length - 1) / 4 * 4 = body) :
    decode text = .ok b ↔ strayLast? text = none ∧ ∃ values last,
      bodyValues 0 (text.take body) = .ok values ∧ decodeTail body (text.drop body) = .ok last ∧
        b = joinQuads values ++ last := by
  unfold decode
  rw [hbody]
  cases strayLast? text with
  | some f => exact iff_of_false nofun fun h => nomatch h.1
  | none =>
    simp only [bind_eq_ok_iff, pure, Except.pure, Except.ok.injEq, true_and, exists_and_left,
      eq_comm (b := b)]

/-- Only the text of some octets is decoded. -/
theorem eq_of_decode {text b : List UInt8} (h : decode text = .ok b) :
    text = octets (encode b) := by
  by_cases hne : text = []
  · rw [hne] at h ⊢
    cases h
    rfl
  have hpos := List.length_pos_of_ne_nil hne
  -- Whole groups come first, so the last group is what remains: one to four symbols.
  obtain ⟨body, hb⟩ : ∃ body, (text.length - 1) / 4 * 4 = body := ⟨_, rfl⟩
  have hrest : (text.drop body).length = text.length - body := List.length_drop
  obtain ⟨-, values, last, hvalues, hlast, rfl⟩ := (decode_eq_ok_iff hb).mp h
  obtain ⟨hfits, hbody⟩ := eq_of_bodyValues hvalues
  have hlen : values.length = body := by
    have hl := congrArg List.length hbody
    rw [List.length_take, symbolOctets, List.length_map] at hl
    omega
  have hq := Quads.of_length hfits (by omega)
  rw [decodeTail_eq_ok_iff (List.ne_nil_of_length_pos (by omega))] at hlast
  obtain ⟨tail, count, htail, hleast, hmod, hunused, rfl⟩ := hlast
  obtain ⟨htailFits, -, more, rfl, htext⟩ := eq_of_tailValues htail
  -- They are four with their padding, as two of them are no padding.
  have hcount : tail.length + more = 4 := by
    have hl := congrArg List.length htext
    rw [hrest, List.length_append, symbolOctets, List.length_map, List.length_replicate] at hl
    omega
  have hl : LastGroup tail := ⟨htailFits, hleast, by omega, hunused⟩
  obtain rfl : more = 4 - tail.length := by omega
  rw [octets_encode hq hl, ← hbody, ← htext, List.take_append_drop]

theorem decode_encode (b : List UInt8) : decode (octets (encode b)) = .ok b := by
  by_cases hb : b = []
  · rw [hb]
    rfl
  obtain ⟨values, last, hq, rfl, hne, hlen⟩ := exists_quads hb
  obtain ⟨tail, hl, rfl⟩ := exists_lastGroup hne hlen
  have htail : decodeTail values.length _ = _ := decodeTail_symbolOctets hl
  rw [octets_encode hq hl]
  set rest := symbolOctets tail ++ List.replicate (4 - tail.length) pad with hr
  have hrest : rest.length = 4 := by
    have hmost := hl.atMost
    rw [hr, List.length_append, symbolOctets, List.length_map, List.length_replicate]
    omega
  have hvalues : (symbolOctets values).length = values.length := List.length_map ..
  have hmod := hq.length_mod
  have hlength : (symbolOctets values ++ rest).length = values.length + 4 := by
    rw [List.length_append, hvalues, hrest]
  have hbody : ((symbolOctets values ++ rest).length - 1) / 4 * 4 = values.length := by omega
  refine (decode_eq_ok_iff hbody).mpr ⟨?_, values, lastOctets tail, ?_, ?_, rfl⟩
  · unfold strayLast?
    split
    · exact if_neg fun h => by omega
    · rfl
  · rw [List.take_left' hvalues]
    exact bodyValues_symbolOctets hq.fits
  · rw [List.drop_left' hvalues]
    exact htail

theorem decode_octets_iff {text : String} {b : List UInt8} :
    decode (octetsOfText text) = .ok b ↔ text.toList = encode b := by
  have hb : octetsOfText (String.ofList (encode b)) = octets (encode b) :=
    octetsOfText_of_ascii fun c hc => (plain_of_mem_encode hc).1
  constructor
  · intro h
    rw [octetsOfText_inj.mp ((eq_of_decode h).trans hb.symm), String.toList_ofList]
  · intro h
    rw [← String.ofList_toList (s := text), h, hb, decode_encode]

theorem encode_inj {b b' : List UInt8} : encode b = encode b' ↔ b = b' := by
  refine ⟨fun h => ?_, fun h => h ▸ rfl⟩
  have hd := decode_encode b'
  rw [← h, decode_encode] at hd
  exact Except.ok.inj hd

end

end ToolPipeline.Base64
