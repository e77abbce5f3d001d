import TensorConcat.Json.Read
import TensorConcat.Proofs.Json.Values

/-! Strings and sizes as JSON values: what is written for them is well formed and read back as it was,
and no size that is read has more than 64 bits. -/

namespace TensorConcat

theorem Digits.ofNat_eq_zero_of_head? {n : Nat} (h : (ofNat n).head? = some '0') : ofNat n = ['0'] := by
  induction n using ofNat.induct with
  | case1 n small =>
    rw [ofNat, if_pos small] at h ⊢
    exact congrArg (fun c => [c]) (Option.some.inj h)
  | case2 n large ih =>
    obtain ⟨c, cs, front⟩ := List.exists_cons_of_ne_nil (ofNat_ne_nil (n / 10))
    rw [ofNat, if_neg large, front, List.cons_append, List.head?_cons] at h
    rw [front, List.head?_cons] at ih
    have zero : n / 10 = 0 := by
      rw [← number_ofNat (n / 10), front, ih h]
      decide
    omega

namespace Json

theorem wellFormed_ofNat (n : Nat) : (ofNat n).WellFormed :=
  .number
    { whole_ne_nil := Digits.ofNat_ne_nil n
      leading := Digits.ofNat_eq_zero_of_head?
      whole := fun _ => Digits.isDigit_of_mem_ofNat
      fraction := nofun }

theorem wellFormed_ofString (s : String) : (ofString s).WellFormed :=
  .text fun u hu => by
    obtain ⟨c, -, rfl⟩ := List.mem_map.1 hu
    trivial

theorem string?_map_char (cs : List Char) : string? (cs.map .char) = some cs := by
  induction cs with
  | nil => rfl
  | cons c cs ih => rw [List.map_cons, string?, ih, Option.map_some]

theorem asString?_ofString (s : String) : (ofString s).asString? = some s := by
  rw [ofString, ofChars, asString?, string?_map_char, Option.map_some, String.ofList_toList]

theorem asSize?_ofNat {n : Nat} (h : n < 0x10000000000000000) : (ofNat n).asSize? = some n := by
  have real : (ofNat n).asReal? = some (.size n) := by
    simp only [ofNat, asReal?, Real.ofNumber?, Digits.number_ofNat, Bool.not_false, Bool.true_and,
      decide_eq_true h, if_true]
  rw [asSize?, real]

theorem Real.ofParts?_ne_size (sign : Bool) (m : Nat) (shift written : Int) (n : Nat) :
    ofParts? sign m shift written ≠ some (.size n) := by
  unfold ofParts?
  split
  · cases scale? m (shift + written) <;> simp
  · split <;> simp

theorem Real.lt_of_ofNumber? {x : Number} {n : Nat} (h : ofNumber? x = some (.size n)) :
    n < 0x10000000000000000 := by
  unfold ofNumber? at h
  split at h
  · simp only at h
    split at h
    next small =>
      cases h
      exact of_decide_eq_true (Bool.and_eq_true_iff.1 small).2
    next =>
      split at h
      · cases h
      · exact (ofParts?_ne_size _ _ _ _ n h).elim
  · exact (ofParts?_ne_size _ _ _ _ n h).elim

theorem asSize?_lt {v : Json} {n : Nat} (h : v.asSize? = some n) : n < 0x10000000000000000 := by
  unfold asSize? at h
  split at h
  next m real =>
    obtain rfl := Option.some.inj h
    cases v with
    | number x => exact Real.lt_of_ofNumber? real
    | _ => cases real
  next => cases h

end Json
end TensorConcat
