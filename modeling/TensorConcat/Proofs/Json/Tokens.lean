import TensorConcat.Json.Print
import TensorConcat.Proofs.Numeric.DecimalText

/-! The tokens of printed text. What is written for a token is read as that token, with any escapes
and any spaces; a number has to be followed by something that cannot belong to it. -/

namespace TensorConcat
namespace Json

open Digits (isDigit)

theorem hexValue?_hexDigit {d : Nat} (h : d < 16) : hexValue? (hexDigit d) = some d := by
  have : ∀ d, d < 16 → hexValue? (hexDigit d) = some d := by decide
  exact this d h

/-! ### Texts -/

def TextUnit.WellFormed : TextUnit → Prop
  | .char _ => True
  | .surrogate code => 0xd800 ≤ code ∧ code < 0xe000

theorem unit?_codeEscape {code : Nat} (h : code < 0x10000) (rest : List Char) :
    unit? (codeEscape code ++ rest) = some (.ofCode code, rest) := by
  have digit (n : Nat) := hexValue?_hexDigit (Nat.mod_lt n (by decide : 0 < 16))
  have sum : 4096 * (code / 4096 % 16) + 256 * (code / 256 % 16) + 16 * (code / 16 % 16)
      + code % 16 = code := by omega
  simp only [codeEscape, List.cons_append, List.nil_append, unit?, digit, Option.bind_eq_bind,
    Option.bind_some, sum]

theorem ofCode_of_lt {code : Nat} (h : code < 0x20) : TextUnit.ofCode code = .char (.ofNat code) :=
  if_neg fun ⟨low, _⟩ => by omega

theorem unit?_plain {c : Char} (backslash : c ≠ '\\') (control : ¬ c.toNat < 0x20)
    (rest : List Char) : unit? (c :: rest) = some (.char c, rest) := by
  unfold unit?
  split
  next h => exact absurd (List.cons.inj h).1 backslash
  next h => exact absurd (List.cons.inj h).1 backslash
  next h =>
    obtain ⟨rfl, rfl⟩ := List.cons.inj h
    exact if_neg (not_or.2 ⟨control, backslash⟩)
  next h => cases h

theorem unit?_charText (c : Char) (rest : List Char) :
    unit? (charText c ++ rest) = some (.char c, rest) := by
  unfold charText
  split
  case h_8 _ backslash _ _ _ _ _ =>
    split
    next control =>
      rw [unit?_codeEscape (by omega), ofCode_of_lt control, Char.ofNat_toNat]
    next control => exact unit?_plain backslash control rest
  all_goals simp [unit?, escaped?]

theorem unit?_print {u : TextUnit} (h : u.WellFormed) (rest : List Char) :
    unit? (u.print ++ rest) = some (u, rest) := by
  cases u with
  | char c => exact unit?_charText c rest
  | surrogate code =>
    have code_lt : code < 0x10000 := by
      have := h.2
      omega
    rw [TextUnit.print, unit?_codeEscape code_lt, TextUnit.ofCode]
    exact congrArg (fun u => some (u, rest)) (if_pos h)

theorem print_eq_cons (u : TextUnit) : ∃ c rest, u.print = c :: rest ∧ c ≠ '"' := by
  cases u with
  | surrogate code => exact ⟨_, _, rfl, by decide⟩
  | char c =>
    show ∃ d rest, charText c = d :: rest ∧ d ≠ '"'
    unfold charText
    split
    case h_8 quote _ _ _ _ _ _ =>
      by_cases control : c.toNat < 0x20
      · exact ⟨_, _, if_pos control, by decide⟩
      · exact ⟨c, [], if_neg control, quote⟩
    all_goals exact ⟨_, _, rfl, by decide⟩

theorem units?_cons {cs rest : List Char} {u : TextUnit} (h : unit? cs = some (u, rest))
    (quote : cs.head? ≠ some '"') :
    units? cs = (units? rest).map fun (us, after) => (u :: us, after) := by
  cases cs with
  | nil => cases h
  | cons c tail =>
    rw [units?, if_neg fun same => quote (congrArg some same)]
    split
    next none => rw [h] at none; cases none
    next found =>
      obtain ⟨rfl, rfl⟩ := Prod.mk.inj (Option.some.inj (h.symm.trans found))
      rfl

theorem units?_print {us : List TextUnit} (h : ∀ u ∈ us, u.WellFormed) (rest : List Char) :
    units? (us.flatMap TextUnit.print ++ '"' :: rest) = some (us, rest) := by
  induction us with
  | nil => rw [List.flatMap_nil, List.nil_append, units?, if_pos rfl]
  | cons u us ih =>
    obtain ⟨c, tail, print, quote⟩ := print_eq_cons u
    rw [List.flatMap_cons, List.append_assoc, units?_cons (unit?_print (h u List.mem_cons_self) _),
      ih fun v hv => h v (List.mem_cons_of_mem u hv), Option.map_some]
    rw [print]
    exact fun same => quote (Option.some.inj same)

/-! ### Numbers -/

/-- The text goes on with nothing that a number in front of it could take for its own. -/
def EndsNumber (rest : List Char) : Prop :=
  ∀ c ∈ rest.head?, isDigit c = false ∧ c ≠ '.' ∧ c ≠ 'e' ∧ c ≠ 'E'

structure Number.WellFormed (n : Number) : Prop where
  whole_ne_nil : n.whole ≠ []
  leading : n.whole.head? = some '0' → n.whole = ['0']
  whole : ∀ c ∈ n.whole, isDigit c = true
  fraction : ∀ c ∈ n.fraction, isDigit c = true

theorem places_append {ds rest : List Char} (hd : ∀ c ∈ ds, isDigit c = true)
    (hr : ∀ c ∈ rest.head?, isDigit c = false) : places (ds ++ rest) = (ds, rest) := by
  rw [places, Decimal.takeWhile_digits hd, Decimal.dropWhile_digits hd]
  all_goals
    cases rest with
    | nil => rfl
    | cons c tail => simp [hr c rfl]

theorem whole_append {ds rest : List Char} (leading : ds.head? = some '0' → ds = ['0'])
    (hd : ∀ c ∈ ds, isDigit c = true) (hr : ∀ c ∈ rest.head?, isDigit c = false)
    (ne : ds ≠ []) : whole (ds ++ rest) = (ds, rest) := by
  unfold whole
  split
  next tail h =>
    have : ds = ['0'] := leading (by
      cases ds with
      | nil => exact absurd rfl ne
      | cons d ds => exact congrArg some (List.cons.inj h).1)
    subst this
    exact congrArg (['0'], ·) (List.cons.inj h).2.symm
  next => exact places_append hd hr

def fractionPart (ds : List Char) : List Char :=
  if ds.isEmpty then [] else '.' :: ds

theorem fraction?_append {ds rest : List Char} (hd : ∀ c ∈ ds, isDigit c = true)
    (hr : ∀ c ∈ rest.head?, isDigit c = false ∧ c ≠ '.') :
    fraction? (fractionPart ds ++ rest) = some (ds, rest) := by
  cases ds with
  | nil =>
    unfold fraction?
    split
    next h => exact absurd rfl (hr '.' (congrArg List.head? h)).2
    next => rfl
  | cons d ds =>
    rw [fractionPart, List.isEmpty_cons, if_neg Bool.false_ne_true, List.cons_append, fraction?,
      places_append hd fun c hc => (hr c hc).1]
    rfl

def exponentPart : Option Int → List Char
  | none => []
  | some e => exponentText e

theorem exponentText_eq (e : Int) :
    exponentText e = 'e' :: (if e < 0 then '-' else '+') :: Digits.ofNat e.natAbs := by
  rw [exponentText, Digits.ofInt]
  split <;> rfl

theorem exponentSign_cons (negative : Prop) [Decidable negative] (rest : List Char) :
    exponentSign ((if negative then '-' else '+') :: rest) = (decide negative, rest) := by
  split
  next h => rw [decide_eq_true h]; rfl
  next h => rw [decide_eq_false h]; rfl

theorem exponent?_append (e : Option Int) {rest : List Char} (hr : EndsNumber rest) :
    exponent? (exponentPart e ++ rest) = some (e, rest) := by
  cases e with
  | none =>
    cases rest with
    | nil => rfl
    | cons c tail =>
      obtain ⟨-, -, lower, upper⟩ := hr c rfl
      exact if_neg (not_or.2 ⟨lower, upper⟩)
  | some e =>
    have digits : places (Digits.ofNat e.natAbs ++ rest) = (Digits.ofNat e.natAbs, rest) :=
      places_append (fun c hc => Digits.isDigit_of_mem_ofNat hc) fun c hc => (hr c hc).1
    have some_digit : (Digits.ofNat e.natAbs).isEmpty = false :=
      List.isEmpty_eq_false_iff.2 (Digits.ofNat_ne_nil e.natAbs)
    have signed : (if decide (e < 0) then -(e.natAbs : Int) else e.natAbs) = e := by
      simp only [decide_eq_true_eq]
      omega
    rw [exponentPart, exponentText_eq, List.cons_append, List.cons_append, exponent?, if_pos (.inl rfl),
      exponentSign_cons]
    simp only [digits, some_digit, Bool.false_eq_true, if_false, Digits.number_ofNat, signed]

theorem head?_exponentPart (e : Option Int) {rest : List Char} (hr : EndsNumber rest) :
    ∀ c ∈ (exponentPart e ++ rest).head?, isDigit c = false ∧ c ≠ '.' := by
  cases e with
  | none => exact fun c hc => ⟨(hr c hc).1, (hr c hc).2.1⟩
  | some e => rintro c ⟨⟩; decide

theorem head?_fractionPart (ds : List Char) {rest : List Char}
    (hr : ∀ c ∈ rest.head?, isDigit c = false ∧ c ≠ '.') :
    ∀ c ∈ (fractionPart ds ++ rest).head?, isDigit c = false := by
  cases ds with
  | nil => exact fun c hc => (hr c hc).1
  | cons d ds => rintro c ⟨⟩; decide

theorem magnitude?_print {n : Number} (h : n.WellFormed) {rest : List Char} (hr : EndsNumber rest) :
    magnitude? n.negative (n.whole ++ (fractionPart n.fraction ++ (exponentPart n.exponent ++ rest)))
      = some (n, rest) := by
  have exponent := head?_exponentPart n.exponent hr
  have whole := whole_append h.leading h.whole (head?_fractionPart n.fraction exponent) h.whole_ne_nil
  have some_digit : n.whole.isEmpty = false := List.isEmpty_eq_false_iff.2 h.whole_ne_nil
  rw [magnitude?, whole, some_digit, if_neg Bool.false_ne_true, fraction?_append h.fraction exponent,
    Option.bind_some]
  simp only [exponent?_append n.exponent hr, Option.map_some]

theorem Number.print_append (n : Number) (rest : List Char) :
    n.print ++ rest = (if n.negative then ['-'] else []) ++
      (n.whole ++ (fractionPart n.fraction ++ (exponentPart n.exponent ++ rest))) := by
  simp only [print, fractionPart, List.append_assoc]
  cases n.exponent <;> rfl

theorem number?_print {n : Number} (h : n.WellFormed) {rest : List Char} (hr : EndsNumber rest) :
    number? (n.print ++ rest) = some (n, rest) := by
  rw [n.print_append]
  have magnitude := magnitude?_print h hr
  cases negative : n.negative with
  | true =>
    rw [negative] at magnitude
    exact magnitude
  | false =>
    rw [negative] at magnitude
    rw [if_neg Bool.false_ne_true, List.nil_append]
    unfold number?
    split
    next tail text =>
      obtain ⟨d, ds, whole⟩ := List.exists_cons_of_ne_nil h.whole_ne_nil
      rw [whole, List.cons_append] at text
      have digit := h.whole d (whole ▸ List.mem_cons_self)
      exact absurd (List.cons.inj text).1 (Digits.ne_of_isDigit digit (by decide))
    next => exact magnitude

theorem Number.WellFormed.print_eq_cons {n : Number} (h : n.WellFormed) :
    ∃ c rest, n.print = c :: rest ∧ (isDigit c = true ∨ c = '-') := by
  have print := n.print_append []
  rw [List.append_nil] at print
  rw [print]
  cases n.negative with
  | true => exact ⟨_, _, rfl, .inr rfl⟩
  | false =>
    obtain ⟨d, ds, whole⟩ := List.exists_cons_of_ne_nil h.whole_ne_nil
    rw [whole]
    exact ⟨_, _, rfl, .inl (h.whole d (whole ▸ List.mem_cons_self))⟩

/-! ### Tokens -/

theorem tokens?_space {c : Char} (h : isSpace c = true) (rest : List Char) :
    tokens? (c :: rest) = tokens? rest := by
  rw [tokens?, if_pos h]

theorem tokens?_token {c : Char} {rest after : List Char} {t : Token} (h : isSpace c = false)
    (token : tokenFrom? c rest = some (t, after)) :
    tokens? (c :: rest) = (tokens? after).map (t :: ·) := by
  rw [tokens?, h, if_neg Bool.false_ne_true]
  split
  next none => rw [token] at none; cases none
  next found =>
    obtain ⟨rfl, rfl⟩ := Prod.mk.inj (Option.some.inj (token.symm.trans found))
    rfl

/-- In front of `rest`, the characters are read as the tokens. -/
def Scans (cs : List Char) (ts : List Token) (rest : List Char) : Prop :=
  tokens? (cs ++ rest) = (tokens? rest).map (ts ++ ·)

theorem Scans.append {cs ds rest : List Char} {ts us : List Token} (first : Scans cs ts (ds ++ rest))
    (second : Scans ds us rest) : Scans (cs ++ ds) (ts ++ us) rest := by
  rw [Scans, List.append_assoc, first, second, Option.map_map]
  exact congrArg (Option.map · (tokens? rest)) (funext fun _ => (List.append_assoc ..).symm)

theorem scans_mark {c : Char} {t : Token} (space : isSpace c = false)
    (h : ∀ rest, tokenFrom? c rest = some (t, rest)) (rest : List Char) : Scans [c] [t] rest :=
  tokens?_token space (h rest)

theorem scans_newline (level : Nat) (rest : List Char) : Scans (newline level) [] rest := by
  have spaces (n : Nat) : tokens? (List.replicate n ' ' ++ rest) = tokens? rest := by
    induction n with
    | zero => rfl
    | succ n ih => rw [List.replicate_succ, List.cons_append, tokens?_space rfl, ih]
  rw [Scans, newline, List.cons_append, tokens?_space rfl, spaces]
  cases tokens? rest <;> rfl

theorem scans_text {us : List TextUnit} (h : ∀ u ∈ us, u.WellFormed) (rest : List Char) :
    Scans (textBody us) [.text us] rest := by
  rw [Scans, textBody, List.append_assoc, List.singleton_append, List.cons_append]
  refine tokens?_token rfl ?_
  rw [tokenFrom?, units?_print h]
  rfl

theorem tokenFrom?_number {c : Char} (h : isDigit c = true ∨ c = '-') (rest : List Char) :
    isSpace c = false ∧
      tokenFrom? c rest = (number? (c :: rest)).map fun (n, after) => (.number n, after) := by
  have ne {d : Char} (hd : isDigit d = false ∧ d ≠ '-') : c ≠ d := by
    rcases h with digit | rfl
    · exact Digits.ne_of_isDigit digit hd.1
    · exact hd.2.symm
  constructor
  · simp only [isSpace, ne (by decide : isDigit ' ' = false ∧ ' ' ≠ '-'),
      ne (by decide : isDigit '\n' = false ∧ '\n' ≠ '-'),
      ne (by decide : isDigit '\t' = false ∧ '\t' ≠ '-'),
      ne (by decide : isDigit '\r' = false ∧ '\r' ≠ '-'), decide_false, Bool.or_false]
  · unfold tokenFrom?
    split
    case h_11 => rfl
    all_goals exact absurd rfl (ne (by decide))

theorem scans_number {n : Number} (h : n.WellFormed) {rest : List Char} (hr : EndsNumber rest) :
    Scans n.print [.number n] rest := by
  have number := number?_print h hr
  obtain ⟨c, tail, print, start⟩ := h.print_eq_cons
  obtain ⟨space, token⟩ := tokenFrom?_number start (tail ++ rest)
  rw [print, List.cons_append] at number
  rw [number] at token
  rw [Scans, print]
  exact tokens?_token space token

theorem after?_append (word rest : List Char) : after? word (word ++ rest) = some rest := by
  induction word with
  | nil => rfl
  | cons c word ih => rw [List.cons_append, after?, if_pos rfl, ih]

theorem scans_null (rest : List Char) : Scans "null".toList [.null] rest :=
  tokens?_token rfl (congrArg (Option.map _) (after?_append "ull".toList rest))

theorem scans_true (rest : List Char) : Scans "true".toList [.bool true] rest :=
  tokens?_token rfl (congrArg (Option.map _) (after?_append "rue".toList rest))

theorem scans_false (rest : List Char) : Scans "false".toList [.bool false] rest :=
  tokens?_token rfl (congrArg (Option.map _) (after?_append "alse".toList rest))

end Json
end TensorConcat
