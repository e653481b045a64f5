import ControlLoop.Proofs.Text.Reads

/-!
# Reading digits

A run of decimal digits writes a number, and the digits of a number write that
number. How far a parser of digits gets is decided by the length of the run at
the front of the text.
-/

set_option autoImplicit false

namespace ControlLoop

namespace Parser

/-- The value of a decimal digit. -/
def decimalValue (c : Char) : Nat := c.toNat - '0'.toNat

/-- Decimal digits only. -/
def AllDigits (cs : List Char) : Prop := ∀ c ∈ cs, c.isDigit = true

/-- The number that decimal digits write. -/
def numberOf (cs : List Char) : Nat := ofDigits 10 (cs.map decimalValue)

theorem numberOf_eq_ofDigitChars (cs : List Char) : numberOf cs = Nat.ofDigitChars 10 cs 0 := by
  rw [numberOf, ofDigits, Nat.ofDigitChars_eq_foldl, List.foldl_map]
  simp only [decimalValue, Nat.mul_comm]

theorem numberOf_toDigits (n : Nat) : numberOf (Nat.toDigits 10 n) = n := by
  rw [numberOf_eq_ofDigitChars, Nat.ofDigitChars_toDigits (by decide) (by decide)]

theorem allDigits_toDigits (n : Nat) : AllDigits (Nat.toDigits 10 n) :=
  fun _ hc => Nat.isDigit_of_mem_toDigits (by decide) (by decide) hc

theorem allDigits_replicate_zero (n : Nat) : AllDigits (List.replicate n '0') := by
  intro c hc
  rw [List.eq_of_mem_replicate hc]
  rfl

theorem AllDigits.append {cs ds : List Char} (hcs : AllDigits cs) (hds : AllDigits ds) :
    AllDigits (cs ++ ds) := by
  intro c hc
  rcases List.mem_append.1 hc with hc | hc
  · exact hcs c hc
  · exact hds c hc

theorem AllDigits.take {cs : List Char} (h : AllDigits cs) (n : Nat) : AllDigits (cs.take n) :=
  fun c hc => h c (List.mem_of_mem_take hc)

theorem AllDigits.drop {cs : List Char} (h : AllDigits cs) (n : Nat) : AllDigits (cs.drop n) :=
  fun c hc => h c (List.mem_of_mem_drop hc)

theorem numberOf_concat (cs : List Char) (c : Char) :
    numberOf (cs ++ [c]) = numberOf cs * 10 + decimalValue c := by
  rw [numberOf, ofDigits, List.map_append, List.foldl_append]
  rfl

/-- Zeros at the end are powers of ten. -/
theorem numberOf_append_zeros (cs : List Char) (n : Nat) :
    numberOf (cs ++ List.replicate n '0') = numberOf cs * Nat.pow 10 n := by
  simp only [numberOf_eq_ofDigitChars, Nat.ofDigitChars_append, Nat.ofDigitChars_replicate_zero]
  exact Nat.mul_comm _ _

/-- Zeros at the front are worth nothing. -/
theorem numberOf_zeros_append (n : Nat) (cs : List Char) :
    numberOf (List.replicate n '0' ++ cs) = numberOf cs := by
  simp only [numberOf_eq_ofDigitChars, Nat.ofDigitChars_append, Nat.ofDigitChars_replicate_zero,
    Nat.mul_zero]

theorem isDigit_iff {c : Char} : c.isDigit = true ↔ 48 ≤ c.toNat ∧ c.toNat ≤ 57 := by
  simp only [Char.isDigit, Char.toNat, Bool.and_eq_true, decide_eq_true_eq, ge_iff_le,
    UInt32.le_iff_toNat_le]
  rfl

theorem decimalValue_lt {c : Char} (h : c.isDigit = true) : decimalValue c < 10 := by
  have hc := isDigit_iff.1 h
  have hzero : '0'.toNat = 48 := rfl
  unfold decimalValue
  omega

variable {c : Char} {text run rest : List Char}

theorem reads_digit (h : c.isDigit = true) (rest : List Char) :
    Reads (digit 10) (c :: rest) (decimalValue c) rest := by
  refine (reads_any c rest).bind ?_
  have hvalue : digitValue? c = some (decimalValue c) := by rw [digitValue?, if_pos h]; rfl
  simp only [hvalue, decimalValue_lt h, ↓reduceIte]
  exact reads_pure _ rest

/-- The letters that are digits in larger bases are worth ten at least. -/
theorem le_of_digitValue {d : Nat} (h : c.isDigit = false) (hd : digitValue? c = some d) :
    10 ≤ d := by
  simp only [digitValue?, h, Bool.false_eq_true, ↓reduceIte] at hd
  split at hd
  · rw [← Option.some.inj hd]; omega
  · split at hd
    · rw [← Option.some.inj hd]; omega
    · cases hd

theorem fails_digit (h : Stops Char.isDigit text) : Fails (digit 10) text := by
  cases text with
  | nil => exact (fails_satisfy (stops_nil _)).bind
  | cons c rest =>
    refine (reads_any c rest).bind_fails ?_
    cases hd : digitValue? c with
    | none => exact fails_failure rest
    | some d =>
      have hten : ¬ d < 10 := Nat.not_lt.2 (le_of_digitValue (stops_cons.1 h) hd)
      simp only [hten, ↓reduceIte]
      exact fails_failure rest

/-- After digits the text stops where it stops without them. -/
theorem Stops.digits_append {test : Char → Bool} (hrest : Stops test rest) (hrun : AllDigits run)
    (htest : ∀ c : Char, c.isDigit = true → test c = false) : Stops test (run ++ rest) := by
  cases run with
  | nil => exact hrest
  | cons c run => exact stops_cons.2 (htest c (hrun c List.mem_cons_self))

/-- One more digit in a number of exactly so many. -/
theorem Reads.digitsExactly_succ {base n front d : Nat} {mid : List Char}
    (hfront : Reads (digitsExactly base n) text front mid) (hd : Reads (digit base) mid d rest) :
    Reads (digitsExactly base (n + 1)) text (front * base + d) rest :=
  hfront.bind (hd.bind (reads_pure _ rest))

theorem reads_digitsExactly (hrun : AllDigits run) (rest : List Char) {n : Nat}
    (hn : n ≤ run.length) :
    Reads (digitsExactly 10 n) (run ++ rest) (numberOf (run.take n)) (run.drop n ++ rest) := by
  induction n with
  | zero => exact reads_pure 0 (run ++ rest)
  | succ n ih =>
    rw [List.take_succ_eq_append_getElem hn, numberOf_concat]
    refine (ih (Nat.le_of_succ_le hn)).digitsExactly_succ ?_
    rw [List.drop_eq_getElem_cons hn, List.cons_append]
    exact reads_digit (hrun _ (List.getElem_mem hn)) _

theorem fails_digitsExactly (hrun : AllDigits run) (hrest : Stops Char.isDigit rest) {n : Nat}
    (hn : run.length < n) : Fails (digitsExactly 10 n) (run ++ rest) := by
  induction n with
  | zero => exact absurd hn (Nat.not_lt_zero _)
  | succ n ih =>
    by_cases hlt : run.length < n
    · exact (ih hlt).bind
    · have hlen : run.length = n := by omega
      refine (reads_digitsExactly hrun rest (Nat.le_of_eq hlen.symm)).bind_fails ?_
      rw [← hlen, List.drop_length, List.nil_append]
      exact (fails_digit hrest).bind

end Parser

end ControlLoop
