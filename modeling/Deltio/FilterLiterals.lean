import Deltio.FilterPrinter
import Deltio.Lib.Utf8

namespace Deltio

open Lib

/-- What the tokenizer makes of a literal: one character for each byte. -/
def mangled (value : String) : String := asciiText (value.toList.flatMap String.utf8EncodeChar)

lemma toList_mangled (value : String) :
    (mangled value).toList = (value.toList.flatMap String.utf8EncodeChar).map byteChar :=
  toList_asciiText _

lemma toNat_byteChar (b : UInt8) : (byteChar b).toNat = b.toNat := by
  have hvalid : b.toNat.isValidChar := .inl (b.toNat_lt.trans (by decide))
  unfold byteChar Char.toNat
  rw [Char.ofNat, dif_pos hvalid]
  rfl

lemma byteOf_byteChar (b : UInt8) : byteOf (byteChar b) = b := by
  rw [byteOf, toNat_byteChar, UInt8.ofNat_toNat]

lemma byte_mangled (value : String) : ∀ c ∈ (mangled value).toList, c.toNat < 256 := by
  intro c hc
  rw [toList_mangled] at hc
  obtain ⟨b, -, rfl⟩ := List.mem_map.mp hc
  rw [toNat_byteChar]
  exact b.toNat_lt

/-- The bytes of a character that takes several are not ASCII. -/
lemma le_toNat_of_mem_utf8EncodeChar {c : Char} (hc : 128 ≤ c.toNat) {b : UInt8}
    (hb : b ∈ String.utf8EncodeChar c) : 128 ≤ b.toNat := by
  have hsize : ¬ c.val.toNat ≤ 0x7f := by
    change ¬ c.toNat ≤ 127
    omega
  have hofNat : ∀ n, 128 ≤ n → n < 256 → 128 ≤ (UInt8.ofNat n).toNat := by
    intro n hn hlt
    rw [UInt8.toNat_ofNat', Nat.mod_eq_of_lt hlt]
    exact hn
  unfold String.utf8EncodeChar at hb
  dsimp only at hb
  rw [if_neg hsize] at hb
  split_ifs at hb <;> simp only [List.mem_cons, List.not_mem_nil, or_false] at hb
  · rcases hb with rfl | rfl <;> exact hofNat _ (by omega) (by omega)
  · rcases hb with rfl | rfl | rfl <;> exact hofNat _ (by omega) (by omega)
  · rcases hb with rfl | rfl | rfl | rfl <;> exact hofNat _ (by omega) (by omega)

/-- No byte of a character that is not escaped looks like one that is. -/
lemma escape_byteChar {c : Char} (hc : ¬ (c = '"' ∨ c = '\\')) {b : UInt8}
    (hb : b ∈ String.utf8EncodeChar c) : escape (byteChar b) = [byteChar b] := by
  refine if_neg fun hesc => ?_
  by_cases hascii : c.toNat < 128
  · rw [utf8EncodeChar_of_ascii hascii, List.mem_singleton] at hb
    rw [hb, byteChar_byteOf (hascii.trans (by decide))] at hesc
    exact hc hesc
  · have hge := le_toNat_of_mem_utf8EncodeChar (not_lt.mp hascii) hb
    rw [← toNat_byteChar] at hge
    rcases hesc with hesc | hesc
    · rw [hesc] at hge
      exact absurd hge (by decide)
    · rw [hesc] at hge
      exact absurd hge (by decide)

/-- The bytes of an escaped character are those of its escaped bytes. -/
lemma bytes_escape (c : Char) :
    (escape c).flatMap String.utf8EncodeChar =
      (((String.utf8EncodeChar c).map byteChar).flatMap escape).map byteOf := by
  by_cases hc : c = '"' ∨ c = '\\'
  · rcases hc with rfl | rfl <;> decide
  · have hplain : ∀ bytes : List UInt8, (∀ b ∈ bytes, escape (byteChar b) = [byteChar b]) →
        ((bytes.map byteChar).flatMap escape).map byteOf = bytes := by
      intro bytes hbytes
      induction bytes with
      | nil => rfl
      | cons b bytes ih =>
        rw [List.map_cons, List.flatMap_cons, hbytes b List.mem_cons_self, List.map_append,
          ih fun b' hb' => hbytes b' (List.mem_cons_of_mem _ hb'), List.map_singleton,
          byteOf_byteChar]
        rfl
    rw [hplain _ fun b hb => escape_byteChar hc hb, escape, if_neg hc, List.flatMap_singleton]

/-- The literal has the bytes of the literal it is taken for. -/
lemma bytes_quote (value : String) :
    (quote value).toList.flatMap String.utf8EncodeChar = (quote (mangled value)).toList.map byteOf := by
  have hbody : (value.toList.flatMap escape).flatMap String.utf8EncodeChar =
      ((mangled value).toList.flatMap escape).map byteOf := by
    rw [toList_mangled]
    generalize value.toList = chars
    induction chars with
    | nil => rfl
    | cons c chars ih =>
      rw [List.flatMap_cons, List.flatMap_append, List.flatMap_cons, List.map_append,
        List.flatMap_append, List.map_append, ih, bytes_escape]
  have hquote : String.utf8EncodeChar '"' = [byteOf '"'] := utf8EncodeChar_of_ascii (by decide)
  rw [quote, quote, String.toList_ofList, String.toList_ofList, List.flatMap_cons,
    List.flatMap_append, hbody, List.flatMap_singleton, hquote, List.map_cons, List.map_append,
    List.map_singleton, List.singleton_append]

/-- Around the literal the text is ASCII. -/
lemma bytes_around {before after : String} (hbefore : IsAscii before) (hafter : IsAscii after)
    (value : String) :
    (before ++ quote value ++ after).toList.flatMap String.utf8EncodeChar =
      (before ++ quote (mangled value) ++ after).toList.map byteOf := by
  simp only [String.toList_append, List.flatMap_append, List.map_append, bytes_quote,
    flatMap_utf8EncodeChar hbefore, flatMap_utf8EncodeChar hafter]

lemma mangled_eq_iff (value : String) : mangled value = value ↔ IsAscii value := by
  constructor
  · intro h
    apply Utf8.ascii_of_len_eq
    have hlen := congrArg (fun s => s.toList.length) h
    rw [toList_mangled, List.length_map, Utf8.length_flatMap_utf8EncodeChar] at hlen
    exact hlen
  · intro h
    rw [mangled, flatMap_utf8EncodeChar h, asciiText_map_byteOf h, String.ofList_toList]

/-- A comparison is read as one with the mangled value. -/
lemma parse_eq_literal {key : String} (hk : IsKey key) (value : String) :
    Filter.parse ("attributes." ++ key ++ " = " ++ quote value) =
      .ok ⟨.eq key (mangled value) false⟩ := by
  refine parse_of_reparses (reparses_eq hk (byte_mangled value) false) ?_
  have hbefore : IsAscii ("attributes." ++ key ++ " = ") :=
    isAscii_append (isAscii_append (by decide) hk.ascii) (by decide)
  have hbytes := bytes_around hbefore (show IsAscii "" by decide) value
  rw [String.append_empty, String.append_empty] at hbytes
  exact hbytes

/-- A prefix is read as the mangled prefix. -/
lemma parse_hasPrefix_literal {key : String} (hk : IsKey key) (value : String) :
    Filter.parse ("hasPrefix(attributes." ++ key ++ ", " ++ quote value ++ ")") =
      .ok ⟨.hasPrefix key (mangled value)⟩ := by
  refine parse_of_reparses (reparses_hasPrefix hk (byte_mangled value)) ?_
  have hbefore : IsAscii ("hasPrefix(attributes." ++ key ++ ", ") :=
    isAscii_append (isAscii_append (by decide) hk.ascii) (by decide)
  exact bytes_around hbefore (show IsAscii ")" by decide) value

lemma matches_eq_iff (key value : String) (attributes : Option Attributes) :
    Filter.matches ⟨.eq key value false⟩ attributes = true ↔
      attributes.bind (·.get key) = some value := by
  unfold Filter.matches eval
  cases attributes.bind (·.get key) with
  | none => simp
  | some v => simp

lemma matches_hasPrefix_iff (key value : String) (attributes : Option Attributes) :
    Filter.matches ⟨.hasPrefix key value⟩ attributes = true ↔
      ∃ v, attributes.bind (·.get key) = some v ∧ value.toList <+: v.toList := by
  unfold Filter.matches eval
  cases attributes.bind (·.get key) with
  | none => simp
  | some v => simp

/-- The literal means what it says: as a value to compare with, and as a prefix. -/
structure LiteralMeans (key value : String) : Prop where
  eq : ∃ f, Filter.parse ("attributes." ++ key ++ " = " ++ quote value) = .ok f ∧
    ∀ attributes : Option Attributes,
      f.matches attributes = true ↔ attributes.bind (·.get key) = some value
  hasPrefix : ∃ f,
    Filter.parse ("hasPrefix(attributes." ++ key ++ ", " ++ quote value ++ ")") = .ok f ∧
      ∀ attributes : Option Attributes, f.matches attributes = true ↔
        ∃ v, attributes.bind (·.get key) = some v ∧ value.toList <+: v.toList

/-- A literal means what it says exactly if it is ASCII. -/
theorem literalMeans_iff (key value : String) (hk : IsKey key) :
    LiteralMeans key value ↔ IsAscii value := by
  rw [← mangled_eq_iff]
  constructor
  · intro h
    obtain ⟨f, hf, hmatches⟩ := h.eq
    rw [parse_eq_literal hk] at hf
    cases hf
    -- an attribute with the mangled value matches, so it is the value
    have hone := hmatches (some (HashMap.insert ∅ key (mangled value)))
    rw [matches_eq_iff, Option.bind_some, HashMap.get_insert_self] at hone
    exact Option.some.inj (hone.mp rfl)
  · intro h
    refine ⟨⟨_, parse_eq_literal hk value, ?_⟩, ⟨_, parse_hasPrefix_literal hk value, ?_⟩⟩
    · rw [h]
      exact matches_eq_iff key value
    · rw [h]
      exact matches_hasPrefix_iff key value

/-- A value with a blank and both kinds of escapes. -/
theorem literalMeans_quoted : LiteralMeans "x-1" "say \"hi\" \\" :=
  (literalMeans_iff "x-1" "say \"hi\" \\" (by decide)).mpr (by decide)

/-- The filter for a value with an umlaut is read as two characters, and does not match
that value. -/
theorem umlaut_literal_does_not_match :
    Filter.parse ("attributes.x = " ++ quote "ü") = .ok ⟨.eq "x" "Ã¼" false⟩ ∧
      ¬ LiteralMeans "x" "ü" := by
  have hparse := parse_eq_literal (show IsKey "x" by decide) "ü"
  have hmangled : mangled "ü" = "Ã¼" := by decide
  rw [hmangled] at hparse
  refine ⟨hparse, fun h => ?_⟩
  obtain ⟨f, hf, hmatches⟩ := h.eq
  cases hparse.symm.trans hf
  have htrue := (hmatches (some (HashMap.insert ∅ "x" "ü"))).mpr rfl
  revert htrue
  decide

end Deltio
