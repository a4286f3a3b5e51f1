import SchemaLedger.Connection.Form
import SchemaLedger.Proofs.Sql.Naming
import SchemaLedger.Proofs.Text.Decoding
import SchemaLedger.Proofs.Text.Escaping
/-!
# Pairs there and back

Pairs that are written into a query are read back from it, whatever characters they
consist of: `read_render`. What is written of a character is decoded to its bytes and
has neither of the two separators in it, so parts and pairs are cut apart where they
were joined.
-/

namespace SchemaLedger.Form

def spaced (c : Char) : Char :=
  if c = '+' then ' ' else c

def encodeOne (c : Char) : List Char :=
  if c = ' ' then ['+'] else Percent.encodeChar keep c

theorem encodePart_eq (s : String) : encodePart s = s.toList.flatMap encodeOne := rfl

theorem decodePart_eq (s : List Char) :
    decodePart s = Utf8.lenient
      (Percent.decode ((s.map spaced).flatMap String.utf8EncodeChar)) := by
  rw [decodePart, Utf8.encode_eq_flatMap, String.toList_ofList]
  rfl

/-- What is written of a character is one that stands for itself, a plus sign, or an
escape. -/
theorem encodeOne_cases (c : Char) :
    c = ' ' ∧ encodeOne c = ['+'] ∨
    (c.toNat < 0x80 ∧ keep c = true) ∧ encodeOne c = [c] ∨
    encodeOne c = (String.utf8EncodeChar c).flatMap Percent.escape := by
  by_cases h : c = ' '
  · exact Or.inl ⟨h, if_pos h⟩
  · rw [encodeOne, if_neg h]
    exact Or.inr ((Percent.encodeChar_cases keep c).imp_right And.right)

theorem ne_of_keep {c d : Char} (hc : keep c = true) (hd : keep d = false) :
    c ≠ d := by
  rintro rfl
  rw [hc] at hd
  cases hd

theorem not_mem_encodePart {d : Char} (hplus : d ≠ '+') (hpercent : d ≠ '%')
    (halnum : d.isAlphanum = false) (hkeep : keep d = false) (s : String) :
    d ∉ encodePart s := by
  intro h
  rw [encodePart_eq] at h
  obtain ⟨c, -, hd⟩ := List.mem_flatMap.1 h
  rcases encodeOne_cases c with ⟨-, hc⟩ | ⟨⟨-, hc⟩, hone⟩ | hc
  · rw [hc, List.mem_singleton] at hd
    exact hplus hd
  · rw [hone, List.mem_singleton] at hd
    exact ne_of_keep hc hkeep hd.symm
  · rw [hc] at hd
    obtain ⟨b, -, hd⟩ := List.mem_flatMap.1 hd
    rcases Percent.eq_percent_or_isAlphanum hd with rfl | hd
    · exact hpercent rfl
    · rw [halnum] at hd
      cases hd

theorem map_spaced_escape (b : UInt8) :
    (Percent.escape b).map spaced = Percent.escape b := by
  refine (List.map_congr_left fun c hc => ?_).trans (List.map_id _)
  refine if_neg ?_
  rintro rfl
  rcases Percent.eq_percent_or_isAlphanum hc with h | h <;> revert h <;> decide

theorem decode_escapes (bytes rest : List UInt8) :
    Percent.decode (((bytes.flatMap Percent.escape).map spaced).flatMap
      String.utf8EncodeChar ++ rest) = bytes ++ Percent.decode rest := by
  induction bytes with
  | nil => rfl
  | cons b bytes ih =>
      rw [List.flatMap_cons, List.map_append, map_spaced_escape, List.flatMap_append,
        List.append_assoc, Percent.decode_escape, ih, List.cons_append]

theorem decode_encodeOne (c : Char) (rest : List UInt8) :
    Percent.decode (((encodeOne c).map spaced).flatMap String.utf8EncodeChar
      ++ rest) = String.utf8EncodeChar c ++ Percent.decode rest := by
  rcases encodeOne_cases c with ⟨rfl, hc⟩ | ⟨⟨hlt, hkeep⟩, hc⟩ | hc
  · rw [hc]
    exact Percent.decode_cons_of_ne (by decide) rest
  · have hplus : spaced c = c := if_neg (ne_of_keep hkeep (by decide))
    have hpercent : c.toNat ≠ 0x25 := fun h =>
      ne_of_keep hkeep (d := '%') (by decide) (Char.toNat_inj.1 h)
    rw [hc, List.map_singleton, hplus, List.flatMap_singleton,
      Utf8.encodeChar_of_lt hlt, List.singleton_append, List.singleton_append,
      Percent.decode_cons_of_ne]
    rw [Ne, ← UInt8.toNat_inj, Utf8.toNat_ofNat_of_lt (by omega)]
    exact hpercent
  · rw [hc, decode_escapes]

theorem decodePart_encodePart (s : String) : decodePart (encodePart s) = s := by
  have hbytes : ∀ chars : List Char, Percent.decode
      (((chars.flatMap encodeOne).map spaced).flatMap String.utf8EncodeChar) =
      chars.flatMap String.utf8EncodeChar := by
    intro chars
    induction chars with
    | nil => rfl
    | cons c chars ih =>
        rw [List.flatMap_cons, List.map_append, List.flatMap_append,
          decode_encodeOne, ih, List.flatMap_cons]
  rw [decodePart_eq, encodePart_eq, hbytes, ← Utf8.encode_eq_flatMap,
    Utf8.lenient_encode]

def piece (p : Pair) : List Char :=
  encodePart p.1 ++ '=' :: encodePart p.2

theorem readPair_piece (p : Pair) : readPair (piece p) = p := by
  have hkey : ∀ c ∈ encodePart p.1, decide (c ≠ '=') = true := by
    intro c hc
    refine decide_eq_true ?_
    rintro rfl
    exact not_mem_encodePart (by decide) (by decide) (by decide) (by decide) _ hc
  rw [readPair, piece, List.takeWhile_append_of_pos hkey,
    List.dropWhile_append_of_pos hkey, List.takeWhile_cons_of_neg (by decide),
    List.dropWhile_cons_of_neg (by decide), List.append_nil, List.drop_one,
    List.tail_cons, decodePart_encodePart, decodePart_encodePart]

theorem not_mem_piece (p : Pair) : '&' ∉ piece p := by
  have hpart := not_mem_encodePart (d := '&') (by decide) (by decide) (by decide)
    (by decide)
  simp [piece, hpart]

/-- Pairs that are written into a query are read back. -/
theorem read_render (pairs : List Pair) : read (render pairs) = pairs := by
  rw [read, render, String.toList_ofList]
  change ((Sql.cut '&' (['&'].intercalate (pairs.map piece))).filter _).map _ = pairs
  cases pairs with
  | nil => rfl
  | cons p rest =>
      have hpieces : ∀ part ∈ (p :: rest).map piece, '&' ∉ part := by
        intro part hpart
        obtain ⟨q, -, rfl⟩ := List.mem_map.1 hpart
        exact not_mem_piece q
      have hnonempty : ∀ part ∈ (p :: rest).map piece, (!part.isEmpty) = true := by
        intro part hpart
        obtain ⟨q, -, rfl⟩ := List.mem_map.1 hpart
        simp [piece]
      rw [Sql.cut_intercalate (by simp) hpieces, List.filter_eq_self.2 hnonempty,
        List.map_map]
      exact (List.map_congr_left fun q _ => readPair_piece q).trans (List.map_id _)

end SchemaLedger.Form
