import TensorConcat.Proofs.Json.Tokens

/-! Printed values are read back: indented text has the tokens of its value, and the tokens of a value
are read as the value, whatever comes after them. -/

namespace TensorConcat
namespace Json

open Digits (isDigit)

inductive WellFormed : Json → Prop where
  | null : WellFormed .null
  | bool (b : Bool) : WellFormed (.bool b)
  | number {n : Number} (literal : n.WellFormed) : WellFormed (.number n)
  | text {us : List TextUnit} (units : ∀ u ∈ us, u.WellFormed) : WellFormed (.text us)
  | array {items : List Json} (values : ∀ v ∈ items, WellFormed v) : WellFormed (.array items)
  | object {members : List (List TextUnit × Json)} (keys : ∀ m ∈ members, ∀ u ∈ m.1, u.WellFormed)
    (values : ∀ m ∈ members, WellFormed m.2) : WellFormed (.object members)

/-! ### From text to tokens -/

theorem endsNumber_nil : EndsNumber [] := nofun

theorem endsNumber_cons {c : Char} (h : isDigit c = false ∧ c ≠ '.' ∧ c ≠ 'e' ∧ c ≠ 'E')
    (rest : List Char) : EndsNumber (c :: rest) := by
  rintro d ⟨⟩
  exact h

def ScansIndented (v : Json) : Prop :=
  ∀ level rest, EndsNumber rest → Scans (v.indented level) v.tokens rest

theorem Scans.newline {cs rest : List Char} {ts : List Token} (h : Scans cs ts rest) (level : Nat) :
    Scans (newline level ++ cs) ts rest :=
  (scans_newline level (cs ++ rest)).append h

theorem Scans.mark {c : Char} {cs rest : List Char} {t : Token} {ts : List Token}
    (h : Scans cs ts rest) (space : isSpace c = false)
    (token : ∀ rest, tokenFrom? c rest = some (t, rest)) : Scans (c :: cs) (t :: ts) rest :=
  (scans_mark space token (cs ++ rest)).append h

theorem Scans.space {c : Char} {cs rest : List Char} {ts : List Token} (h : Scans cs ts rest)
    (space : isSpace c = true) : Scans (c :: cs) ts rest :=
  (tokens?_space space (cs ++ rest)).trans h

theorem scans_items (level : Nat) {items : List Json} (h : ∀ v ∈ items, v.ScansIndented)
    {rest : List Char} (hr : EndsNumber rest) :
    Scans (indentedItems level items) (itemTokens items) rest := by
  induction items with
  | nil => cases r : tokens? rest <;> simp [Scans, indentedItems, itemTokens, r]
  | cons v vs ih =>
    have value {rest : List Char} (hr : EndsNumber rest) :=
      (h v List.mem_cons_self level rest hr).newline level
    cases vs with
    | nil => exact value hr
    | cons w ws =>
      have others := ih fun u hu => h u (List.mem_cons_of_mem v hu)
      exact (value (endsNumber_cons (by decide) _)).append (others.mark rfl fun _ => rfl)

theorem scans_member (level : Nat) {m : List TextUnit × Json} (key : ∀ u ∈ m.1, u.WellFormed)
    (value : m.2.ScansIndented) {rest : List Char} (hr : EndsNumber rest) :
    Scans (newline level ++ textBody m.1 ++ ':' :: ' ' :: m.2.indented level)
      (.text m.1 :: .colon :: m.2.tokens) rest := by
  have after : Scans (':' :: ' ' :: m.2.indented level) (.colon :: m.2.tokens) rest :=
    ((value level rest hr).space rfl).mark rfl fun _ => rfl
  exact ((scans_text key _).newline level).append after

theorem scans_members (level : Nat) {members : List (List TextUnit × Json)}
    (keys : ∀ m ∈ members, ∀ u ∈ m.1, u.WellFormed) (values : ∀ m ∈ members, m.2.ScansIndented)
    {rest : List Char} (hr : EndsNumber rest) :
    Scans (indentedMembers level members) (memberTokens members) rest := by
  induction members with
  | nil => cases r : tokens? rest <;> simp [Scans, indentedMembers, memberTokens, r]
  | cons m ms ih =>
    have member {rest : List Char} (hr : EndsNumber rest) :=
      scans_member level (keys m List.mem_cons_self) (values m List.mem_cons_self) hr
    cases ms with
    | nil => exact member hr
    | cons n ns =>
      have others := ih (fun p hp => keys p (List.mem_cons_of_mem m hp))
        fun p hp => values p (List.mem_cons_of_mem m hp)
      exact (member (endsNumber_cons (by decide) _)).append (others.mark rfl fun _ => rfl)

theorem Scans.enclosed {first last : Char} {cs rest : List Char} {ts : List Token} {before after : Token}
    {level : Nat} (h : ∀ rest, EndsNumber rest → Scans cs ts rest)
    (opens : isSpace first = false ∧ ∀ rest, tokenFrom? first rest = some (before, rest))
    (closes : isSpace last = false ∧ ∀ rest, tokenFrom? last rest = some (after, rest)) :
    Scans (first :: cs ++ Json.newline level ++ [last]) (before :: ts ++ [after]) rest := by
  have closing : Scans (Json.newline level ++ [last]) [after] rest :=
    (scans_mark closes.1 closes.2 rest).newline level
  rw [List.append_assoc]
  exact ((h _ (endsNumber_cons (by decide) _)).append closing).mark opens.1 opens.2

theorem WellFormed.scansIndented {v : Json} (h : v.WellFormed) : v.ScansIndented := by
  induction h with
  | null => exact fun _ rest _ => scans_null rest
  | bool b =>
    cases b
    · exact fun _ rest _ => scans_false rest
    · exact fun _ rest _ => scans_true rest
  | number literal => exact fun _ _ hr => scans_number literal hr
  | text units => exact fun _ rest _ => scans_text units rest
  | @array items _ ih =>
    intro level rest hr
    cases items with
    | nil => exact (scans_mark rfl (fun _ => rfl) _).append (scans_mark rfl (fun _ => rfl) rest)
    | cons v vs =>
      exact Scans.enclosed (fun _ => scans_items (level + 1) ih) ⟨rfl, fun _ => rfl⟩ ⟨rfl, fun _ => rfl⟩
  | @object members keys _ ih =>
    intro level rest hr
    cases members with
    | nil => exact (scans_mark rfl (fun _ => rfl) _).append (scans_mark rfl (fun _ => rfl) rest)
    | cons m ms =>
      exact Scans.enclosed (fun _ => scans_members (level + 1) keys ih) ⟨rfl, fun _ => rfl⟩
        ⟨rfl, fun _ => rfl⟩

/-! ### From tokens to a value -/

theorem tokens_eq_cons (v : Json) : ∃ t ts, v.tokens = t :: ts ∧ t ≠ .closeArray := by
  cases v <;> exact ⟨_, _, rfl, nofun⟩

theorem itemTokens_cons_cons (v w : Json) (vs : List Json) :
    itemTokens (v :: w :: vs) = v.tokens ++ .comma :: itemTokens (w :: vs) :=
  rfl

theorem memberTokens_cons_cons (m n : List TextUnit × Json) (ms : List (List TextUnit × Json)) :
    memberTokens (m :: n :: ms) =
      .text m.1 :: .colon :: (m.2.tokens ++ .comma :: memberTokens (n :: ms)) :=
  rfl

theorem itemTokens_eq_cons (v : Json) (vs : List Json) :
    ∃ t ts, itemTokens (v :: vs) = t :: ts ∧ t ≠ .closeArray := by
  obtain ⟨t, ts, tokens, ne⟩ := v.tokens_eq_cons
  cases vs with
  | nil => exact ⟨t, ts, tokens, ne⟩
  | cons w ws => exact ⟨t, _, by rw [itemTokens_cons_cons, tokens, List.cons_append], ne⟩

theorem memberTokens_eq_cons (m : List TextUnit × Json) (ms : List (List TextUnit × Json)) :
    ∃ ts, memberTokens (m :: ms) = .text m.1 :: ts := by
  cases ms <;> exact ⟨_, rfl⟩

theorem value?_openArray {fuel : Nat} {t : Token} {ts : List Token} (ne : t ≠ .closeArray) :
    value? (fuel + 1) (.openArray :: t :: ts) =
      (items? fuel (t :: ts)).map fun (vs, after) => (.array vs, after) := by
  cases t <;> first | exact absurd rfl ne | rfl

theorem items?_last {fuel : Nat} {v : Json} {ts rest : List Token}
    (h : value? fuel ts = some (v, .closeArray :: rest)) : items? (fuel + 1) ts = some ([v], rest) := by
  rw [items?, h]

theorem items?_more {fuel : Nat} {v : Json} {vs : List Json} {ts more rest : List Token}
    (h : value? fuel ts = some (v, .comma :: more)) (others : items? fuel more = some (vs, rest)) :
    items? (fuel + 1) ts = some (v :: vs, rest) := by
  rw [items?, h]
  exact congrArg (Option.map _) others

theorem members?_last {fuel : Nat} {k : List TextUnit} {v : Json} {ts rest : List Token}
    (h : value? fuel ts = some (v, .closeObject :: rest)) :
    members? (fuel + 1) (.text k :: .colon :: ts) = some ([(k, v)], rest) := by
  rw [members?, h]

theorem members?_more {fuel : Nat} {k : List TextUnit} {v : Json}
    {ms : List (List TextUnit × Json)} {ts more rest : List Token}
    (h : value? fuel ts = some (v, .comma :: more)) (others : members? fuel more = some (ms, rest)) :
    members? (fuel + 1) (.text k :: .colon :: ts) = some ((k, v) :: ms, rest) := by
  rw [members?, h]
  exact congrArg (Option.map _) others

theorem read_tokens (fuel : Nat) :
    (∀ v rest, 2 * v.tokens.length ≤ fuel + 1 → value? fuel (v.tokens ++ rest) = some (v, rest)) ∧
    (∀ v vs rest, 2 * (itemTokens (v :: vs)).length ≤ fuel →
      items? fuel (itemTokens (v :: vs) ++ .closeArray :: rest) = some (v :: vs, rest)) ∧
    (∀ m ms rest, 2 * (memberTokens (m :: ms)).length ≤ fuel →
      members? fuel (memberTokens (m :: ms) ++ .closeObject :: rest) = some (m :: ms, rest)) := by
  -- The three readers call each other with one unit less, so that all of them are followed at once.
  induction fuel with
  | zero =>
    refine ⟨fun v rest h => ?_, fun v vs rest h => ?_, fun m ms rest h => ?_⟩
    · obtain ⟨t, ts, tokens, -⟩ := v.tokens_eq_cons
      rw [tokens, List.length_cons] at h
      omega
    · obtain ⟨t, ts, tokens, -⟩ := itemTokens_eq_cons v vs
      rw [tokens, List.length_cons] at h
      omega
    · cases ms <;> simp [memberTokens] at h
  | succ fuel ih =>
    obtain ⟨value, items, members⟩ := ih
    refine ⟨fun v rest h => ?_, fun v vs rest h => ?_, fun m ms rest h => ?_⟩
    · cases v with
      | null => rfl
      | bool b => rfl
      | number n => rfl
      | text us => rfl
      | array vs =>
        cases vs with
        | nil => rfl
        | cons v vs =>
          obtain ⟨t, ts, tokens, ne⟩ := itemTokens_eq_cons v vs
          have enough : 2 * (itemTokens (v :: vs)).length ≤ fuel := by
            simp only [Json.tokens, List.length_append, List.length_cons, List.length_nil] at h
            omega
          have read := items v vs rest enough
          rw [tokens, List.cons_append] at read
          rw [Json.tokens, tokens, List.append_assoc]
          exact (value?_openArray ne).trans (congrArg (Option.map _) read)
      | object ms =>
        cases ms with
        | nil => rfl
        | cons m ms =>
          have enough : 2 * (memberTokens (m :: ms)).length ≤ fuel := by
            simp only [Json.tokens, List.length_append, List.length_cons, List.length_nil] at h
            omega
          obtain ⟨ts, tokens⟩ := memberTokens_eq_cons m ms
          have read := members m ms rest enough
          rw [tokens] at read
          rw [Json.tokens, tokens, List.append_assoc]
          exact congrArg (Option.map _) read
    · cases vs with
      | nil => exact items?_last (value v (.closeArray :: rest) (by simpa [itemTokens] using h))
      | cons w ws =>
        rw [itemTokens_cons_cons] at h ⊢
        rw [List.length_append, List.length_cons] at h
        rw [List.append_assoc, List.cons_append]
        exact items?_more (value v _ (by omega)) (items w ws rest (by omega))
    · obtain ⟨k, v⟩ := m
      cases ms with
      | nil =>
        have read := value v (.closeObject :: rest) (by simp [memberTokens] at h; omega)
        exact members?_last read
      | cons n ns =>
        rw [memberTokens_cons_cons] at h ⊢
        simp only [List.length_append, List.length_cons] at h
        rw [List.cons_append, List.cons_append, List.append_assoc, List.cons_append]
        exact members?_more (value v _ (by omega)) (members n ns rest (by omega))

theorem ofTokens?_tokens (v : Json) : ofTokens? v.tokens = some v := by
  have read := (read_tokens (2 * v.tokens.length + 1)).1 v [] (Nat.le_add_right _ 2)
  rw [List.append_nil] at read
  rw [ofTokens?, read]

theorem parse?_indentedText {v : Json} (h : v.WellFormed) : parse? v.indentedText = some v := by
  have scanned := h.scansIndented 0 [] endsNumber_nil
  rw [Scans, List.append_nil, tokens?, Option.map_some, List.append_nil] at scanned
  rw [parse?, indentedText, String.toList_ofList, scanned, Option.bind_some, ofTokens?_tokens]

end Json
end TensorConcat
