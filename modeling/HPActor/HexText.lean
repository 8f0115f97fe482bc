/-
Lines of hexadecimal numerals.  A numeral is written without sign or mark and
read the way the C library reads one: blanks, a sign and a mark may stand in
front, and reading stops at the first character that is no digit.  A text is
cut into lines at its newlines, and a last line need not end in one.
-/
import Mathlib.Data.List.Basic
import Mathlib.Data.Nat.Digits.Defs

namespace HexText

open List

def digitValue (c : Char) : Option Nat :=
  if '0' ≤ c ∧ c ≤ '9' then some (c.toNat - '0'.toNat)
  else if 'a' ≤ c ∧ c ≤ 'f' then some (c.toNat - 'a'.toNat + 10)
  else if 'A' ≤ c ∧ c ≤ 'F' then some (c.toNat - 'A'.toNat + 10)
  else none

/-- The value of the digits in front, after `n`, and what follows them. -/
def readDigits : Nat → List Char → Nat × List Char
  | n, [] => (n, [])
  | n, c :: rest =>
    match digitValue c with
    | none => (n, c :: rest)
    | some d => readDigits (n * 16 + d) rest

def isBlank (c : Char) : Bool :=
  c = ' ' || c = '\t' || c = '\n' || c = '\x0b' || c = '\x0c' || c = '\r'

def dropSign : List Char → Bool × List Char
  | '-' :: rest => (true, rest)
  | '+' :: rest => (false, rest)
  | text => (false, text)

/-- A mark counts only if a digit follows it. -/
def dropMark : List Char → List Char
  | '0' :: x :: d :: rest =>
    if (x = 'x' ∨ x = 'X') ∧ (digitValue d).isSome then d :: rest
    else '0' :: x :: d :: rest
  | text => text

/-- A numeral of 64 bits and what follows it. -/
def readNumeral (text : List Char) : Option (Nat × List Char) :=
  let signed := dropSign (text.dropWhile isBlank)
  let body := dropMark signed.2
  match body with
  | [] => none
  | c :: _ =>
    if (digitValue c).isSome then
      let read := readDigits 0 body
      if read.1 < 2 ^ 64 then
        some (if signed.1 then (2 ^ 64 - read.1) % 2 ^ 64 else read.1, read.2)
      else none
    else none

def numeral (n : Nat) : List Char := Nat.toDigits 16 n

theorem digitValue_digitChar {d : Nat} (hd : d < 16) : digitValue d.digitChar = some d := by
  have hall : ∀ d : Fin 16, digitValue d.val.digitChar = some d.val := by
    decide
  exact hall ⟨d, hd⟩

theorem readDigits_digitChar (n : Nat) {d : Nat} (hd : d < 16) (rest : List Char) :
    readDigits n (d.digitChar :: rest) = readDigits (n * 16 + d) rest := by
  rw [readDigits, digitValue_digitChar hd]

/-- Every character of a numeral is a digit. -/
theorem digit_of_mem_numeral (n : Nat) :
    ∀ c ∈ numeral n, ∃ d < 16, c = Nat.digitChar d := by
  induction n using Nat.strong_induction_on with
  | _ n ih =>
    intro c hc
    by_cases hsmall : n < 16
    · rw [numeral, Nat.toDigits_of_lt_base hsmall, mem_singleton] at hc
      exact ⟨n, hsmall, hc⟩
    · rw [numeral, Nat.toDigits_of_base_le (by decide) (by omega), mem_append, mem_singleton] at hc
      rcases hc with hfront | hlast
      · exact ih (n / 16) (by omega) c hfront
      · exact ⟨n % 16, Nat.mod_lt n (by decide), hlast⟩

/-- Reading the digits of a numeral gives its value. -/
theorem readDigits_numeral (n : Nat) (rest : List Char) :
    readDigits 0 (numeral n ++ rest) = readDigits n rest := by
  induction n using Nat.strong_induction_on generalizing rest with
  | _ n ih =>
    by_cases hsmall : n < 16
    · rw [numeral, Nat.toDigits_of_lt_base hsmall, singleton_append,
        readDigits_digitChar 0 hsmall, Nat.zero_mul, zero_add]
    · rw [numeral, Nat.toDigits_of_base_le (by decide) (by omega), append_assoc, singleton_append]
      have hfront := ih (n / 16) (by omega) ((n % 16).digitChar :: rest)
      rw [numeral] at hfront
      rw [hfront, readDigits_digitChar _ (Nat.mod_lt n (by decide)), Nat.div_add_mod' n 16]

theorem numeral_ne_nil (n : Nat) : numeral n ≠ [] := Nat.toDigits_ne_nil

/-- What may follow a numeral so that it is read to its end. -/
def Stops (rest : List Char) : Prop :=
  ∀ c ∈ rest.head?, digitValue c = none ∧ c ≠ 'x' ∧ c ≠ 'X'

variable {rest : List Char}

theorem readDigits_stops (n : Nat) (hstops : Stops rest) : readDigits n rest = (n, rest) := by
  cases rest with
  | nil => rfl
  | cons c rest =>
    rw [readDigits, (hstops c rfl).1]

/-- What is known of a digit's character without its value. -/
theorem digitChar_plain {d : Nat} (hd : d < 16) :
    isBlank d.digitChar = false ∧ d.digitChar ≠ '-' ∧ d.digitChar ≠ '+' ∧
      d.digitChar ≠ 'x' ∧ d.digitChar ≠ 'X' ∧ d.digitChar ≠ ' ' ∧
      d.digitChar ≠ '\n' := by
  have hall : ∀ d : Fin 16, isBlank d.val.digitChar = false ∧
      d.val.digitChar ≠ '-' ∧ d.val.digitChar ≠ '+' ∧
      d.val.digitChar ≠ 'x' ∧ d.val.digitChar ≠ 'X' ∧
      d.val.digitChar ≠ ' ' ∧ d.val.digitChar ≠ '\n' := by
    decide
  exact hall ⟨d, hd⟩

theorem dropSign_of_ne {c : Char} (hminus : c ≠ '-') (hplus : c ≠ '+') :
    dropSign (c :: rest) = (false, c :: rest) := by
  rw [dropSign]
  · rintro _ ⟨rfl⟩
    exact hminus rfl
  · rintro _ ⟨rfl⟩
    exact hplus rfl

/-- No mark is taken off a text whose second character is none. -/
theorem dropMark_of_ne {c : Char} (hrest : ∀ x ∈ rest.head?, x ≠ 'x' ∧ x ≠ 'X') :
    dropMark (c :: rest) = c :: rest := by
  rw [dropMark.eq_def]
  split
  · rename_i x d tail heq
    cases heq
    have hx := hrest x rfl
    rw [if_neg]
    rintro ⟨hmark | hmark, -⟩
    · exact hx.1 hmark
    · exact hx.2 hmark
  · rfl

theorem head?_numeral_append (n : Nat) (hstops : Stops rest) : ∃ d < 16, ∃ tail,
      numeral n ++ rest = Nat.digitChar d :: tail ∧ ∀ x ∈ tail.head?, x ≠ 'x' ∧ x ≠ 'X' := by
  have hdigits := digit_of_mem_numeral n
  cases hnumeral : numeral n with
  | nil => exact absurd hnumeral (numeral_ne_nil n)
  | cons c digits =>
    rw [hnumeral] at hdigits
    obtain ⟨d, hd, rfl⟩ := hdigits c mem_cons_self
    refine ⟨d, hd, digits ++ rest, rfl, ?_⟩
    intro x hx
    cases digits with
    | nil => exact (hstops x hx).2
    | cons e digits =>
      cases hx
      obtain ⟨k, hk, rfl⟩ :=
        hdigits x (mem_cons_of_mem _ mem_cons_self)
      have hplain := digitChar_plain hk
      exact ⟨hplain.2.2.2.1, hplain.2.2.2.2.1⟩

/-- A numeral that is written is read back, with what follows left over. -/
theorem readNumeral_numeral {n : Nat} (hn : n < 2 ^ 64) (hstops : Stops rest) :
    readNumeral (numeral n ++ rest) = some (n, rest) := by
  have hread : readDigits 0 (numeral n ++ rest) = (n, rest) := by
    rw [readDigits_numeral, readDigits_stops n hstops]
  obtain ⟨d, hd, tail, htext, htail⟩ := head?_numeral_append n hstops
  have hplain := digitChar_plain hd
  rw [htext] at hread ⊢
  have hblank : (d.digitChar :: tail).dropWhile isBlank = d.digitChar :: tail := by
    rw [dropWhile_cons_of_neg (by rw [hplain.1]; decide)]
  rw [readNumeral, hblank, dropSign_of_ne hplain.2.1 hplain.2.2.1]
  simp only [dropMark_of_ne htail, digitValue_digitChar hd, Option.isSome_some,
    hread, if_pos hn, if_true, Bool.false_eq_true, if_false]

theorem readNumeral_numeral_nil {n : Nat} (hn : n < 2 ^ 64) :
    readNumeral (numeral n) = some (n, []) := by
  have hstops : Stops [] := by
    intro c hc
    cases hc
  have hread := readNumeral_numeral hn hstops
  rwa [append_nil] at hread

theorem newline_not_mem_numeral (n : Nat) : '\n' ∉ numeral n := by
  intro hmem
  obtain ⟨d, hd, heq⟩ := digit_of_mem_numeral n _ hmem
  exact (digitChar_plain hd).2.2.2.2.2.2 heq.symm

def lines : List Char → List (List Char)
  | [] => []
  | c :: rest =>
    if c = '\n' then [] :: lines rest
    else
      match lines rest with
      | [] => [[c]]
      | line :: more => (c :: line) :: more

def unlines (texts : List (List Char)) : List Char :=
  texts.flatMap fun line => line ++ ['\n']

theorem lines_line {line : List Char} (hline : '\n' ∉ line) (rest : List Char) :
    lines (line ++ '\n' :: rest) = line :: lines rest := by
  induction line with
  | nil => rfl
  | cons c line ih =>
    have hc : c ≠ '\n' := by
      rintro rfl
      exact hline mem_cons_self
    have hrest := ih fun hmem => hline (mem_cons_of_mem c hmem)
    rw [cons_append, lines, if_neg hc, hrest]

/-- Lines that are written one by one are read one by one. -/
theorem lines_unlines {texts : List (List Char)}
    (htexts : ∀ line ∈ texts, '\n' ∉ line) : lines (unlines texts) = texts := by
  induction texts with
  | nil => rfl
  | cons line texts ih =>
    have htail := ih fun l hl => htexts l (mem_cons_of_mem line hl)
    rw [unlines, flatMap_cons, append_assoc, singleton_append,
      lines_line (htexts line mem_cons_self)]
    rw [unlines] at htail
    rw [htail]

theorem unlines_append_line (texts : List (List Char)) (line : List Char) :
    unlines (texts ++ [line]) = unlines texts ++ (line ++ ['\n']) := by
  rw [unlines, flatMap_append, flatMap_singleton, unlines]

/-- A text made of whole lines. -/
def Lined (text : List Char) : Prop :=
  ∃ texts : List (List Char), (∀ line ∈ texts, '\n' ∉ line) ∧ text = unlines texts

theorem lined_nil : Lined [] :=
  ⟨[], fun _ hline => (not_mem_nil hline).elim, rfl⟩

theorem Lined.newline_not_mem {text : List Char} (htext : Lined text) :
    ∀ line ∈ lines text, '\n' ∉ line := by
  obtain ⟨texts, hclean, rfl⟩ := htext
  rwa [lines_unlines hclean]

/-- Writing one more line. -/
theorem Lined.append {text line : List Char} (htext : Lined text) (hline : '\n' ∉ line) :
    Lined (text ++ (line ++ ['\n'])) ∧ lines (text ++ (line ++ ['\n'])) = lines text ++ [line] := by
  obtain ⟨texts, hclean, rfl⟩ := htext
  have hall : ∀ l ∈ texts ++ [line], '\n' ∉ l :=
    forall_mem_append.mpr ⟨hclean, forall_mem_singleton.mpr hline⟩
  rw [← unlines_append_line]
  exact ⟨⟨_, hall, rfl⟩, by rw [lines_unlines hall, lines_unlines hclean]⟩

end HexText
