import Stencil.Proofs.Pieces
import Stencil.Proofs.Splitting

/-! Positions in texts.

Where a piece is found, what is cut out of a text and how long a text is: all of these count characters. So
what is found can be cut out, and a text cut at two positions is put together again
(`Expr.Library.positions_agree`). What is cut out are the characters between two positions, which have to lie
in the text (`Expr.Library.substring_between_iff`). -/
namespace Stencil.Expr.Library

/-! ### Positions and lengths -/

theorem positionIn_eq_ok_iff {length n : Nat} {index : Int64} :
    positionIn length index = .ok n ↔ index.toInt = n ∧ n ≤ length := by
  unfold positionIn position?
  by_cases h : 0 ≤ index.toInt
  · rw [if_pos h]
    dsimp only
    split
    · next hle =>
      rw [Except.ok.injEq]
      omega
    · next hgt =>
      refine ⟨nofun, fun ⟨hi, hle⟩ => absurd ?_ hgt⟩
      omega
  · rw [if_neg h]
    refine ⟨nofun, fun ⟨hi, _⟩ => absurd ?_ h⟩
    omega

/-- A count that fits 64 bits is what it counts. -/
theorem exists_count {n : Nat} (h : n < 0x8000000000000000) :
    ∃ i : Int64, count n = .int i ∧ i.toInt = n :=
  ⟨Int64.ofInt n, rfl, Int64.toInt_ofInt_of_le (by omega) (by omega)⟩

theorem count_eq {n : Nat} {i : Int64} (h : i.toInt = n) : count n = .int i := by
  rw [count, ← h, Int64.ofInt_toInt]

/-! ### The methods -/

section
variable {s : List Char} {i m : Int64} {v : Value}

theorem substring_from_iff :
    substring s [.int i] = .ok v ↔ ∃ n : Nat, i.toInt = n ∧ n ≤ s.length ∧ v = text (s.drop n) := by
  have hunfold : substring s [.int i] =
      positionIn s.length i >>= fun n => .ok (text (s.drop n)) := rfl
  rw [hunfold]
  constructor
  · intro h
    obtain ⟨n, hn, hv⟩ := Eval.exists_of_bind h
    obtain ⟨hi, hle⟩ := positionIn_eq_ok_iff.1 hn
    exact ⟨n, hi, hle, (Except.ok.inj hv).symm⟩
  · rintro ⟨n, hi, hle, rfl⟩
    rw [positionIn_eq_ok_iff.2 ⟨hi, hle⟩]
    rfl

/-- The characters between two positions are cut out, if both lie in the text and in this order. -/
theorem substring_between_iff :
    substring s [.int i, .int m] = .ok v ↔
      ∃ n k : Nat, i.toInt = n ∧ m.toInt = k ∧ n + k ≤ s.length ∧ v = text ((s.drop n).take k) := by
  have hunfold : substring s [.int i, .int m] =
      positionIn s.length i >>= fun n => positionIn (s.drop n).length m >>= fun k =>
        .ok (text ((s.drop n).take k)) := rfl
  rw [hunfold]
  constructor
  · intro h
    obtain ⟨n, hn, h⟩ := Eval.exists_of_bind h
    obtain ⟨k, hk, hv⟩ := Eval.exists_of_bind h
    obtain ⟨hi, hle⟩ := positionIn_eq_ok_iff.1 hn
    obtain ⟨hm, hfits⟩ := positionIn_eq_ok_iff.1 hk
    rw [List.length_drop] at hfits
    exact ⟨n, k, hi, hm, by omega, (Except.ok.inj hv).symm⟩
  · rintro ⟨n, k, hi, hm, hle, rfl⟩
    have hfits : k ≤ (s.drop n).length := by
      rw [List.length_drop]
      omega
    rw [positionIn_eq_ok_iff.2 ⟨hi, by omega⟩]
    show (positionIn (s.drop n).length m >>= _) = _
    rw [positionIn_eq_ok_iff.2 ⟨hm, hfits⟩]
    rfl

end

theorem callMethod_indexOf (s n : String) :
    callMethod (.str s) "IndexOf" [.str n] = .ok (match Text.find? n.toList s.toList with
      | some k => count k
      | none => .int (-1)) := by
  have hunfold : callMethod (.str s) "IndexOf" [.str n] = match Text.find? n.toList s.toList with
      | some k => .ok (count k)
      | none => .ok (.int (-1)) := rfl
  rw [hunfold]
  cases Text.find? n.toList s.toList <;> rfl

theorem callMethod_startsWith (s n : String) :
    callMethod (.str s) "StartsWith" [.str n] = .ok (.bool (n.toList.isPrefixOf s.toList)) := rfl

/-- Where a piece is found the text goes on for its length. -/
theorem add_length_le_of_find? {piece s : List Char} {k : Nat} (h : Text.find? piece s = some k) :
    k + piece.length ≤ s.length := by
  obtain ⟨hoccurs, hfirst⟩ := Text.find?_eq_some h
  have hle := hoccurs.length_le
  rw [List.length_drop] at hle
  rcases Nat.eq_zero_or_pos k with rfl | hpos
  · omega
  · -- An empty piece is found at the beginning.
    have hne : piece ≠ [] := by
      rintro rfl
      exact hfirst 0 hpos List.nil_prefix
    have := List.length_pos_iff.2 hne
    omega

/-! ### What is found and what is cut out -/

section
variable {s n : String} {i m : Int64} {k : Nat}

/-- What is found can be cut out. -/
theorem substring_of_find? (h : Text.find? n.toList s.toList = some k) (hi : i.toInt = k)
    (hm : m.toInt = n.length) : callMethod (.str s) "Substring" [.int i, .int m] = .ok (.str n) := by
  refine substring_between_iff.2 ⟨k, n.length, hi, hm, ?_, ?_⟩
  · rw [← String.length_toList]
    exact add_length_le_of_find? h
  · rw [← String.length_toList, ← List.prefix_iff_eq_take.1 (Text.find?_eq_some h).1]
    exact congrArg Value.str String.ofList_toList.symm

/-- In front of where a piece is found the text does not go on with it. -/
theorem startsWith_of_find? (h : Text.find? n.toList s.toList = some k) (hi : 0 ≤ i.toInt)
    (hlt : i.toInt < k) : ∃ rest, callMethod (.str s) "Substring" [.int i] = .ok rest ∧
      callMethod rest "StartsWith" [.str n] = .ok (.bool false) := by
  have hle := add_length_le_of_find? h
  have hno : n.toList.isPrefixOf (s.toList.drop i.toInt.toNat) = false :=
    Bool.eq_false_iff.2 fun hp =>
      (Text.find?_eq_some h).2 i.toInt.toNat (by omega) (List.isPrefixOf_iff_prefix.1 hp)
  refine ⟨text (s.toList.drop i.toInt.toNat),
    substring_from_iff.2 ⟨i.toInt.toNat, by omega, by omega, rfl⟩, ?_⟩
  rw [text, callMethod_startsWith, String.toList_ofList, hno]

/-- A text is cut between two positions in it, and nowhere else. -/
theorem exists_substring_iff : (∃ part, callMethod (.str s) "Substring" [.int i, .int m] = .ok part) ↔
    (0 ≤ i.toInt ∧ i.toInt ≤ s.length) ∧ 0 ≤ m.toInt ∧ m.toInt ≤ s.length - i.toInt := by
  rw [← String.length_toList]
  constructor
  · rintro ⟨part, h⟩
    obtain ⟨n, k, hi, hm, hle, -⟩ := substring_between_iff.1 h
    omega
  · rintro ⟨⟨hi, hile⟩, hm, hmle⟩
    exact ⟨_, substring_between_iff.2 ⟨i.toInt.toNat, m.toInt.toNat, by omega, by omega, by omega, rfl⟩⟩

/-- What is cut out has the length asked for. -/
theorem length_of_substring {part : Value}
    (h : callMethod (.str s) "Substring" [.int i, .int m] = .ok part) :
    property part "Length" = .ok (.int m) := by
  obtain ⟨n, k, -, hm, hle, rfl⟩ := substring_between_iff.1 h
  have hlength : ((s.toList.drop n).take k).length = k := by
    rw [List.length_take_of_le]
    rw [List.length_drop]
    omega
  show Except.ok (count (String.ofList ((s.toList.drop n).take k)).length) = _
  rw [String.length_ofList, hlength, count_eq hm]

/-- With what is in front of it and behind it, what is cut out makes up the text. -/
theorem add_substring (hs : s.length < 0x8000000000000000) {part : Value}
    (h : callMethod (.str s) "Substring" [.int i, .int m] = .ok part) :
    ∃ front stop back, callMethod (.str s) "Substring" [.int 0, .int i] = .ok front ∧
      Value.add (.int i) (.int m) = .ok stop ∧ callMethod (.str s) "Substring" [stop] = .ok back ∧
      (front.add part >>= fun joined => joined.add back) = .ok (.str s) := by
  obtain ⟨n, k, hi, hm, hle, rfl⟩ := substring_between_iff.1 h
  have hlength := hle
  rw [String.length_toList] at hlength
  obtain ⟨stop, -, hstop⟩ := exists_count (n := n + k) (by omega)
  refine ⟨text (s.toList.take n), .int stop, text (s.toList.drop (n + k)),
    substring_between_iff.2 ⟨0, n, rfl, hi, by omega, rfl⟩, ?_,
    substring_from_iff.2 ⟨n + k, hstop, hle, rfl⟩, ?_⟩
  · have hsum : int64? (i.toInt + m.toInt) = some stop := int64?_eq_some_iff.2 (by omega)
    show Value.ofExact (i.toInt + m.toInt) = _
    rw [Value.ofExact, hsum]
  · show Except.ok (Value.str (String.ofList (s.toList.take n) ++
      String.ofList ((s.toList.drop n).take k) ++ String.ofList (s.toList.drop (n + k)))) = _
    rw [← String.ofList_append, ← String.ofList_append, List.append_assoc, ← List.drop_drop,
      List.take_append_drop, List.take_append_drop, String.ofList_toList]

end

/-- **Positions in texts agree.** For any two texts: the position of the second in the first is -1 just if
the first does not contain it. Otherwise as many characters as it has, cut out there, are the second text,
and at no position in front does the first go on with it. And for any two whole numbers: the first text can
be cut there just if the one is a position in it and the other no greater than what is left of its length;
what is cut out is so long, and the three parts of the text make up the text. A text that can be held in
memory has fewer characters than a whole number can count. -/
theorem positions_agree (s n : String) (hs : s.length < 0x8000000000000000) :
    (∃ index : Int64, callMethod (.str s) "IndexOf" [.str n] = .ok (.int index) ∧
      (index = -1 ↔ callMethod (.str s) "Contains" [.str n] = .ok (.bool false)) ∧
      (index ≠ -1 →
        (∃ m, property (.str n) "Length" = .ok m ∧
          callMethod (.str s) "Substring" [.int index, m] = .ok (.str n)) ∧
        ∀ j : Int64, 0 ≤ j.toInt → j.toInt < index.toInt →
          ∃ rest, callMethod (.str s) "Substring" [.int j] = .ok rest ∧
            callMethod rest "StartsWith" [.str n] = .ok (.bool false))) ∧
    ∃ length : Int64, property (.str s) "Length" = .ok (.int length) ∧ ∀ i m : Int64,
      ((∃ part, callMethod (.str s) "Substring" [.int i, .int m] = .ok part) ↔
        (0 ≤ i.toInt ∧ i.toInt ≤ length.toInt) ∧
          0 ≤ m.toInt ∧ m.toInt ≤ length.toInt - i.toInt) ∧
      ∀ part, callMethod (.str s) "Substring" [.int i, .int m] = .ok part →
        property part "Length" = .ok (.int m) ∧
        ∃ front stop back, callMethod (.str s) "Substring" [.int 0, .int i] = .ok front ∧
          Value.add (.int i) (.int m) = .ok stop ∧
          callMethod (.str s) "Substring" [stop] = .ok back ∧
          (front.add part >>= fun joined => joined.add back) = .ok (.str s) := by
  constructor
  · rw [callMethod_indexOf, callMethod_contains, Text.contains]
    cases hfind : Text.find? n.toList s.toList with
    | none => exact ⟨-1, rfl, ⟨fun _ => rfl, fun _ => rfl⟩, fun h => absurd rfl h⟩
    | some k =>
      have hle := add_length_le_of_find? hfind
      rw [String.length_toList, String.length_toList] at hle
      obtain ⟨index, hindex, hk⟩ := exists_count (n := k) (by omega)
      obtain ⟨m, hm, hlength⟩ := exists_count (n := n.length) (by omega)
      have hne : index ≠ -1 := by
        rintro rfl
        have hminus : (-1 : Int64).toInt = -1 := by decide
        omega
      exact ⟨index, congrArg Except.ok hindex, ⟨fun h => absurd h hne, fun h => by cases h⟩, fun _ =>
        ⟨⟨.int m, congrArg Except.ok hm, substring_of_find? hfind hk hlength⟩,
          fun j hj hlt => startsWith_of_find? hfind hj (hk ▸ hlt)⟩⟩
  · obtain ⟨length, hcount, hlength⟩ := exists_count hs
    refine ⟨length, congrArg Except.ok hcount, fun i m =>
      ⟨?_, fun part h => ⟨length_of_substring h, add_substring hs h⟩⟩⟩
    rw [hlength]
    exact exists_substring_iff

/-- Characters of several bytes, and a piece that the text goes on with halfway before. -/
theorem positions_agree_of_accents :
    let s := "ñéé€ééñ"
    let n := "ééñ"
    s.length < 0x8000000000000000 ∧ callMethod (.str s) "IndexOf" [.str n] = .ok (.int 4) ∧
      callMethod (.str s) "Substring" [.int 4, .int 3] = .ok (.str n) ∧
      (∃ rest, callMethod (.str s) "Substring" [.int 1] = .ok rest ∧
        callMethod rest "StartsWith" [.str n] = .ok (.bool false)) ∧
      ¬∃ part, callMethod (.str s) "Substring" [.int 4, .int 4] = .ok part := by
  intro s n
  have hs : s.length < 0x8000000000000000 := by decide
  obtain ⟨⟨index, hindex, -, hfound⟩, length, hlength, hcut⟩ := positions_agree s n hs
  have hfind : Text.find? n.toList s.toList = some 4 := by decide +kernel
  have hfour : callMethod (.str s) "IndexOf" [.str n] = .ok (.int 4) := by
    rw [callMethod_indexOf, hfind]
    rfl
  obtain rfl : index = 4 := Value.int.inj (Except.ok.inj (hindex.symm.trans hfour))
  have hseven : property (.str s) "Length" = .ok (.int 7) := congrArg Except.ok (count_eq (by decide))
  obtain rfl : length = 7 := Value.int.inj (Except.ok.inj (hlength.symm.trans hseven))
  obtain ⟨⟨m, hm, hsubstring⟩, hbefore⟩ := hfound (by decide)
  have hthree : property (.str n) "Length" = .ok (.int 3) := congrArg Except.ok (count_eq (by decide))
  obtain rfl : m = .int 3 := Except.ok.inj (hm.symm.trans hthree)
  refine ⟨hs, hindex, hsubstring, hbefore 1 (by decide) (by decide), fun h => ?_⟩
  exact absurd ((hcut 4 4).1.1 h).2.2 (by decide)

end Stencil.Expr.Library
