import ControlLoop.Proofs.Binary64.Shortest
import ControlLoop.Proofs.Text.Digits
import ControlLoop.Toml.Printer
import ControlLoop.Toml.Scalar

/-!
# Numbers in TOML read back

An integer that fits 64 bits is read back from its digits, and a float from the
text that it is written as, whichever of its digits stand before the point.
-/

set_option autoImplicit false

namespace ControlLoop.Toml

open ControlLoop.Parser

variable {cs input rest whole part : List Char}

/-- The digits of a whole number: no zero leads, unless zero is all there is. -/
structure WholeDigits (cs : List Char) : Prop where
  digits : AllDigits cs
  nonempty : cs ≠ []
  leading : cs = ['0'] ∨ cs.head? ≠ some '0'

theorem head?_toDigits {n : ℕ} (h : n ≠ 0) : (Nat.toDigits 10 n).head? ≠ some '0' := by
  induction n using Nat.strongRecOn with
  | ind n ih =>
    rw [Nat.toDigits_eq_if (by decide)]
    split
    · rwa [List.head?_cons, ne_eq, Option.some_inj, Nat.digitChar_eq_zero]
    · next hten =>
      rw [List.head?_append_of_ne_nil _ Nat.toDigits_ne_nil]
      exact ih (n / 10) (by omega) (by omega)

theorem wholeDigits_toDigits (n : ℕ) : WholeDigits (Nat.toDigits 10 n) := by
  refine ⟨allDigits_toDigits n, Nat.toDigits_ne_nil, ?_⟩
  rcases eq_or_ne n 0 with rfl | hn
  · exact Or.inl rfl
  · exact Or.inr (head?_toDigits hn)

/-- A digit, or the mark that may stand between two digits. -/
def isSpacedDigit (c : Char) : Bool := c.isDigit || c == '_'

theorem ne_underscore_of_isDigit {c : Char} (h : c.isDigit = true) : (c == '_') = false := by
  rw [beq_eq_false_iff_ne]
  rintro rfl
  cases h

theorem stops_isDigit (h : Stops isSpacedDigit rest) : Stops Char.isDigit rest :=
  fun c hc => (Bool.or_eq_false_iff.1 (h c hc)).1

theorem stops_underscore (h : Stops isSpacedDigit rest) : Stops (· == '_') rest :=
  fun c hc => (Bool.or_eq_false_iff.1 (h c hc)).2

theorem readsAll_spaced (hcs : AllDigits cs) (hrest : Stops isSpacedDigit rest) :
    ReadsAll (do discard <| Parser.optional (Parser.char '_'); Parser.digit 10) (cs ++ rest)
      (cs.map decimalValue) rest := by
  induction cs with
  | nil =>
    refine .stop ?_
    exact (fails_char (stops_underscore hrest)).optional.discard.bind_fails
      (fails_digit (stops_isDigit hrest))
  | cons c cs ih =>
    have hc := hcs c List.mem_cons_self
    refine .step ?_ (Nat.lt_succ_self _) (ih fun d hd => hcs d (List.mem_cons_of_mem _ hd))
    exact (fails_char (stops_cons.2 (ne_underscore_of_isDigit hc))).optional.discard.bind
      (reads_digit hc _)

theorem reads_spacedDigits (hcs : AllDigits cs) (hne : cs ≠ []) (hrest : Stops isSpacedDigit rest) :
    Reads (spacedDigits 10) (cs ++ rest) (cs.map decimalValue) rest := by
  obtain ⟨c, cs, rfl⟩ := List.exists_cons_of_ne_nil hne
  refine (reads_digit (hcs c List.mem_cons_self) _).bind ?_
  have hmore := readsAll_spaced (fun d hd => hcs d (List.mem_cons_of_mem c hd)) hrest
  exact hmore.many.bind (reads_pure _ rest)

theorem fails_spacedDigits (h : Stops Char.isDigit input) : Fails (spacedDigits 10) input :=
  (fails_digit h).bind

theorem reads_peek (input : List Char) : Reads Parser.peek? input input.head? input := rfl

theorem reads_decimalDigits (h : WholeDigits whole) (hrest : Stops isSpacedDigit rest) :
    Reads decimalDigits (whole ++ rest) (whole.map decimalValue) rest := by
  refine (reads_peek _).bind ?_
  obtain ⟨c, cs, rfl⟩ := List.exists_cons_of_ne_nil h.nonempty
  split
  · next hzero =>
    have hc : c = '0' := Option.some.inj hzero
    have hcs : cs = [] := by
      rcases h.leading with hall | hne
      · exact (List.cons.inj hall).2
      · exact absurd hzero hne
    subst hc hcs
    exact (reads_digit rfl rest).bind (reads_pure _ rest)
  · exact reads_spacedDigits h.digits h.nonempty hrest

theorem fails_decimalDigits (h : Stops Char.isDigit input) : Fails decimalDigits input := by
  refine (reads_peek _).bind_fails ?_
  split
  · next hzero =>
    exact absurd (h '0' hzero) (by decide)
  · exact fails_spacedDigits h

/-- A minus before the digits of what is negative. -/
def withSign (negative : Bool) (cs : List Char) : List Char := if negative then '-' :: cs else cs

/-- A plus or a minus. -/
def isSign (c : Char) : Bool := c == '+' || c == '-'

theorem reads_sign (negative : Bool) (h : Stops isSign cs) :
    Reads sign (withSign negative cs) negative cs := by
  cases negative with
  | true => exact (reads_satisfy (c := '-') rfl).optional.bind (reads_pure _ cs)
  | false => exact (fails_satisfy h).optional.bind (reads_pure _ cs)

theorem not_isSign_of_isDigit {c : Char} (h : c.isDigit = true) : isSign c = false := by
  rw [isSign, Bool.or_eq_false_iff, beq_eq_false_iff_ne, beq_eq_false_iff_ne]
  constructor <;> rintro rfl <;> cases h

theorem WholeDigits.stops {test : Char → Bool} (h : WholeDigits whole)
    (htest : ∀ c : Char, c.isDigit = true → test c = false) (rest : List Char) :
    Stops test (whole ++ rest) := by
  obtain ⟨c, cs, rfl⟩ := List.exists_cons_of_ne_nil h.nonempty
  exact stops_cons.2 (htest c (h.digits c List.mem_cons_self))

theorem withSign_append (negative : Bool) (cs rest : List Char) :
    withSign negative cs ++ rest = withSign negative (cs ++ rest) := by
  cases negative <;> rfl

/-- The text goes on as it does after a value: there is nothing more, another item, or the end of
the list or of the line. -/
def Closes (rest : List Char) : Prop := ∀ c ∈ rest.head?, c ∈ [',', ']', '\n']

theorem Closes.stops (h : Closes rest) {test : Char → Bool}
    (htest : [',', ']', '\n'].all (fun c => !test c) = true) : Stops test rest := by
  intro c hc
  simpa using List.all_eq_true.1 htest c (h c hc)

section Moments

variable {run : List Char}

/-- A digit, or a mark between the digits of a date or a time. -/
def isMomentPart (c : Char) : Bool := c.isDigit || c == '-' || c == ':'

theorem stops_isDigit_of_moment (h : Stops isMomentPart rest) : Stops Char.isDigit rest := by
  intro c hc
  have hpart := h c hc
  simp only [isMomentPart, Bool.or_eq_false_iff] at hpart
  exact hpart.1.1

theorem stops_mark {mark : Char} (hmark : mark = '-' ∨ mark = ':') (hrun : AllDigits run)
    (h : Stops isMomentPart rest) (n : ℕ) : Stops (· == mark) (run.drop n ++ rest) := by
  refine Stops.digits_append ?_ (hrun.drop n) ?_
  · intro c hc
    have hpart := h c hc
    simp only [isMomentPart, Bool.or_eq_false_iff] at hpart
    rcases hmark with rfl | rfl
    · exact hpart.1.2
    · exact hpart.2
  · intro c hc
    rw [beq_eq_false_iff_ne]
    rintro rfl
    rcases hmark with rfl | rfl <;> cases hc

/-- After digits that no mark follows there is no date. -/
theorem fails_date (hrun : AllDigits run) (h : Stops isMomentPart rest) :
    Fails date (run ++ rest) := by
  rcases Nat.lt_or_ge run.length 4 with hlt | hge
  · exact (fails_digitsExactly hrun (stops_isDigit_of_moment h) hlt).bind
  · refine (reads_digitsExactly hrun rest hge).bind_fails ?_
    exact (fails_char (stops_mark (Or.inl rfl) hrun h 4)).bind

/-- After digits that no mark follows there is no time. -/
theorem fails_time (hrun : AllDigits run) (h : Stops isMomentPart rest) :
    Fails time (run ++ rest) := by
  rcases Nat.lt_or_ge run.length 2 with hlt | hge
  · exact (fails_digitsExactly hrun (stops_isDigit_of_moment h) hlt).bind.bind
  · have htwo := reads_digitsExactly hrun rest hge
    by_cases hhour : 0 ≤ numberOf (run.take 2) ∧ numberOf (run.take 2) ≤ 23
    · have hread : Reads (twoDigits 0 23) (run ++ rest) () (run.drop 2 ++ rest) := by
        refine htwo.bind ?_
        rw [if_pos hhour]
        exact reads_pure () _
      exact hread.bind_fails (fails_char (stops_mark (Or.inr rfl) hrun h 2)).bind
    · have hfail : Fails (twoDigits 0 23) (run ++ rest) := by
        refine htwo.bind_fails ?_
        rw [if_neg hhour]
        exact fails_failure _
      exact hfail.bind

theorem fails_moment_of_shape (h : Fails momentShape input) : Fails moment input := by
  have hstart : Reads get input (Input.ofList input) input := rfl
  exact hstart.bind_fails h.bind

theorem fails_moment_digits (hrun : AllDigits run) (h : Stops isMomentPart rest) :
    Fails moment (run ++ rest) := by
  refine fails_moment_of_shape (Fails.orElse_fails ?_ (fails_time hrun h))
  exact (fails_date hrun h).bind

/-- What does not start with a digit is no moment. -/
theorem fails_moment (h : Stops Char.isDigit input) : Fails moment input := by
  have hnone : AllDigits [] := nofun
  refine fails_moment_of_shape (Fails.orElse_fails (Fails.bind ?_) (Fails.bind ?_))
  · exact (fails_digitsExactly (n := 4) hnone h (by decide)).bind
  · exact (fails_digitsExactly (n := 2) hnone h (by decide)).bind

end Moments

section Integers

/-- Decimal digits are not taken for those of another base. -/
theorem fails_marked {w : String} {mark : Char} (hw : w.toList = ['0', mark]) (base : ℕ)
    (negative : Bool) (h : WholeDigits whole) (hrest : Stops (· == mark) rest) :
    Fails (markedInteger w base) (withSign negative (whole ++ rest)) := by
  refine (fails_word ?_).bind
  rw [hw]
  cases negative with
  | true => exact fun hprefix => absurd (List.cons_prefix_cons.1 hprefix).1 (by decide)
  | false =>
    rintro hprefix
    rcases h.leading with rfl | hlead
    · obtain ⟨more, rfl⟩ := (List.cons_prefix_cons.1 hprefix).2
      exact absurd (stops_cons.1 hrest) (by simp)
    · obtain ⟨c, cs, rfl⟩ := List.exists_cons_of_ne_nil h.nonempty
      exact hlead (congrArg some (List.cons_prefix_cons.1 hprefix).1.symm)

theorem reads_integer (negative : Bool) {n : ℕ} (hrest : Closes rest)
    (hlow : -Int.pow 2 63 ≤ (if negative then -(n : ℤ) else n))
    (hhigh : (if negative then -(n : ℤ) else n) < Int.pow 2 63) :
    Reads integer (withSign negative (Nat.toDigits 10 n ++ rest))
      (.integer (if negative then -(n : ℤ) else n)) rest := by
  have hwhole := wholeDigits_toDigits n
  refine Fails.orElse (fails_marked rfl 16 negative hwhole (hrest.stops rfl)) ?_
  refine Fails.orElse (fails_marked rfl 8 negative hwhole (hrest.stops rfl)) ?_
  refine Fails.orElse (fails_marked rfl 2 negative hwhole (hrest.stops rfl)) ?_
  refine (reads_sign negative (hwhole.stops (fun _ => not_isSign_of_isDigit) rest)).bind ?_
  refine (reads_decimalDigits hwhole (hrest.stops rfl)).bind ?_
  have hvalue : ofDigits 10 ((Nat.toDigits 10 n).map decimalValue) = n := numberOf_toDigits n
  rw [hvalue, bounded, if_pos ⟨hlow, hhigh⟩]
  exact reads_pure _ rest

end Integers

section Floats

theorem fails_fraction (h : Stops (· == '.') input) : Fails fraction input := (fails_char h).bind

theorem fails_exponent (h : Stops (fun c => c == 'e' || c == 'E') input) : Fails exponent input :=
  (fails_satisfy h).discard.bind

/-- Digits without a point and without a power of ten are no float. -/
theorem fails_digitFloat_digits (negative : Bool) (h : WholeDigits whole) (hrest : Closes rest) :
    Fails digitFloat (withSign negative (whole ++ rest)) := by
  refine (reads_sign negative (h.stops (fun _ => not_isSign_of_isDigit) rest)).bind_fails ?_
  refine (reads_decimalDigits h (hrest.stops rfl)).bind_fails ?_
  refine (fails_fraction (hrest.stops rfl)).optional.bind_fails ?_
  refine (fails_exponent (hrest.stops rfl)).optional.bind_fails ?_
  exact (fails_failure rest).bind

/-- What does not start with a digit after its sign is no float in digits. -/
theorem fails_digitFloat (negative : Bool) (hsign : Stops isSign input)
    (hdigit : Stops Char.isDigit input) : Fails digitFloat (withSign negative input) :=
  (reads_sign negative hsign).bind_fails (fails_decimalDigits hdigit).bind

theorem reads_digitFloat (negative : Bool) (hwhole : WholeDigits whole) (hpart : AllDigits part)
    (hne : part ≠ []) (hrest : Closes rest) {x : Binary64.Finite}
    (hx : Binary64.ofDecimal negative (numberOf (whole ++ part)) (-(part.length : ℤ)) = .finite x) :
    Reads digitFloat (withSign negative (whole ++ '.' :: (part ++ rest))) (.float (.finite x))
      rest := by
  refine (reads_sign negative (hwhole.stops (fun _ => not_isSign_of_isDigit) _)).bind ?_
  refine (reads_decimalDigits hwhole (stops_cons.2 rfl)).bind ?_
  have hfraction : Reads fraction ('.' :: (part ++ rest)) (part.map decimalValue) rest :=
    (reads_char '.' _).bind (reads_spacedDigits hpart hne (hrest.stops rfl))
  refine hfraction.optional.bind ?_
  refine (fails_exponent (hrest.stops rfl)).optional.bind ?_
  have hdigits : ofDigits 10 (whole.map decimalValue ++ part.map decimalValue) =
      numberOf (whole ++ part) := by
    rw [numberOf, List.map_append]
  have hshift : (0 : ℤ) - ((part.map decimalValue).length : ℤ) = -(part.length : ℤ) := by
    rw [List.length_map, zero_sub]
  simp only [Option.isNone_some, Bool.false_eq_true, false_and, ↓reduceIte, Option.getD_some,
    Option.getD_none, hdigits, hshift, hx]
  exact reads_pure _ rest

theorem reads_infinite (negative : Bool) (rest : List Char) :
    Reads namedFloat (withSign negative ("inf".toList ++ rest)) (.float (.infinite negative))
      rest := by
  refine (reads_sign negative (stops_cons.2 rfl)).bind (Reads.orElse ?_)
  exact (reads_word "inf" rest).bind (reads_pure _ rest)

theorem reads_nan (rest : List Char) :
    Reads namedFloat ("nan".toList ++ rest) (.float .nan) rest := by
  have hsign : Reads sign ("nan".toList ++ rest) false ("nan".toList ++ rest) :=
    reads_sign false (stops_cons.2 rfl)
  refine hsign.bind ?_
  refine Fails.orElse (fails_word ?_).bind ?_
  · exact fun hprefix => absurd (List.cons_prefix_cons.1 hprefix).1 (by decide)
  · exact (reads_word "nan" rest).bind (reads_pure _ rest)

/-- What starts with a digit has no name. -/
theorem fails_namedFloat (negative : Bool) (h : WholeDigits whole) :
    Fails namedFloat (withSign negative (whole ++ rest)) := by
  refine (reads_sign negative (h.stops (fun _ => not_isSign_of_isDigit) rest)).bind_fails ?_
  obtain ⟨c, cs, rfl⟩ := List.exists_cons_of_ne_nil h.nonempty
  have hc := h.digits c List.mem_cons_self
  have hname : ∀ d : Char, d.isDigit = false → ∀ ds : List Char, ¬ d :: ds <+: c :: cs ++ rest := by
    rintro d hd ds hprefix
    rw [(List.cons_prefix_cons.1 hprefix).1, hc] at hd
    cases hd
  have hinf : Fails (word "inf") (c :: cs ++ rest) := fails_word (hname 'i' rfl _)
  have hnan : Fails (word "nan") (c :: cs ++ rest) := fails_word (hname 'n' rfl _)
  exact Fails.orElse_fails hinf.bind hnan.bind

/-- The digits before and after the point of a decimal that is written without a power of ten. -/
structure Positional (digits : List Char) (exponent : ℤ) (whole part : List Char) : Prop where
  text_eq : Binary64.positionalText digits exponent = whole ++ '.' :: part
  whole_digits : WholeDigits whole
  part_digits : AllDigits part
  part_ne_nil : part ≠ []
  value_eq : (numberOf (whole ++ part) : ℚ) * 10 ^ (-(part.length : ℤ)) =
    numberOf digits * 10 ^ exponent

section Positions

variable {digits : List Char} (hdigits : AllDigits digits) (hne : digits ≠ [])
  (hlead : digits.head? ≠ some '0')
include hdigits hne hlead

/-- The point stands after all digits and further zeros. -/
theorem positional_after (n : ℕ) :
    Positional digits n (digits ++ List.replicate n '0') ['0'] where
  text_eq := by
    rw [Binary64.positionalText, if_pos (Int.natCast_nonneg n)]
    rfl
  whole_digits :=
    { digits := hdigits.append (allDigits_replicate_zero n)
      nonempty := List.append_ne_nil_of_left_ne_nil hne _
      leading := Or.inr (by rwa [List.head?_append_of_ne_nil _ hne]) }
  part_digits := allDigits_replicate_zero 1
  part_ne_nil := List.cons_ne_nil _ _
  value_eq := by
    have hzeros : digits ++ List.replicate n '0' ++ ['0'] =
        digits ++ List.replicate (n + 1) '0' := by
      rw [List.append_assoc, ← List.replicate_succ']
    have hpow : Nat.pow 10 (n + 1) = 10 ^ (n + 1) := rfl
    rw [hzeros, numberOf_append_zeros, hpow, zpow_natCast]
    push_cast
    rw [pow_succ, List.length_singleton, Nat.cast_one, zpow_neg_one, mul_assoc, mul_assoc,
      mul_inv_cancel₀ (by norm_num : (10 : ℚ) ≠ 0), mul_one]

/-- The point stands after the first digits. -/
theorem positional_among {n : ℕ} (hpos : 0 < n) (hlt : n < digits.length) :
    Positional digits ((n : ℤ) - digits.length) (digits.take n) (digits.drop n) where
  text_eq := by
    rw [Binary64.positionalText, if_neg (by omega), if_pos (by omega)]
    simp
  whole_digits :=
    { digits := hdigits.take n
      nonempty := by simp [hne, hpos.ne']
      leading := Or.inr (by rwa [List.head?_take, if_neg hpos.ne']) }
  part_digits := hdigits.drop n
  part_ne_nil := by simpa using hlt
  value_eq := by
    rw [List.take_append_drop, List.length_drop, Nat.cast_sub hlt.le, neg_sub]

omit hlead in
/-- The point stands before all digits and further zeros. -/
theorem positional_before (n : ℕ) :
    Positional digits (-(n : ℤ) - digits.length) ['0'] (List.replicate n '0' ++ digits) where
  text_eq := by
    have hlen : 0 < digits.length := List.length_pos_iff.2 hne
    rw [Binary64.positionalText, if_neg (by omega), if_neg (by omega)]
    simp [Binary64.zeros]
  whole_digits := ⟨allDigits_replicate_zero 1, List.cons_ne_nil _ _, Or.inl rfl⟩
  part_digits := (allDigits_replicate_zero n).append hdigits
  part_ne_nil := List.append_ne_nil_of_right_ne_nil _ hne
  value_eq := by
    have hzeros : ['0'] ++ (List.replicate n '0' ++ digits) =
        List.replicate (n + 1) '0' ++ digits := rfl
    rw [hzeros, numberOf_zeros_append, List.length_append, List.length_replicate, Nat.cast_add,
      neg_add']

theorem exists_positional (exponent : ℤ) : ∃ whole part, Positional digits exponent whole part := by
  rcases le_or_gt 0 exponent with hexp | hexp
  · obtain ⟨n, rfl⟩ := Int.eq_ofNat_of_zero_le hexp
    exact ⟨_, _, positional_after hdigits hne hlead n⟩
  · rcases lt_or_ge 0 ((digits.length : ℤ) + exponent) with hpoint | hpoint
    · obtain ⟨n, hn⟩ := Int.eq_ofNat_of_zero_le hpoint.le
      have hexponent : exponent = (n : ℤ) - digits.length := by omega
      rw [hexponent]
      exact ⟨_, _, positional_among hdigits hne hlead (by omega) (by omega)⟩
    · obtain ⟨n, hn⟩ := Int.eq_ofNat_of_zero_le (Int.neg_nonneg_of_nonpos hpoint)
      have hexponent : exponent = -(n : ℤ) - digits.length := by omega
      rw [hexponent]
      exact ⟨_, _, positional_before hdigits hne n⟩

end Positions

theorem toList_render (x : Binary64.Finite) :
    (x.render layoutOfFloats).toList = withSign x.negative
      (Binary64.positionalText (Nat.toDigits 10 (x.shortest .awayFromZero).digits)
        (x.shortest .awayFromZero).exponent) := by
  simp [Binary64.Finite.render, layoutOfFloats, withSign]

theorem eq_zero_of_isZero {x : Binary64.Finite} (h : x.isZero = true) : x = .zero x.negative := by
  obtain ⟨negative, significand, exponent, canonical⟩ := x
  obtain rfl : significand = 0 := by simpa [Binary64.Finite.isZero] using h
  obtain rfl : exponent = -1074 := canonical.2.2.2.resolve_left (by decide)
  rfl

/-- The digits before and after the point in the text of a float. -/
structure Decimal (x : Binary64.Finite) (whole part : List Char) : Prop where
  text_eq : (x.render layoutOfFloats).toList = withSign x.negative (whole ++ '.' :: part)
  whole_digits : WholeDigits whole
  part_digits : AllDigits part
  part_ne_nil : part ≠ []
  value_eq : Binary64.ofDecimal x.negative (numberOf (whole ++ part)) (-(part.length : ℤ)) =
    .finite x

theorem decimal_of_isZero {x : Binary64.Finite} (h : x.isZero = true) : Decimal x ['0'] ['0'] where
  text_eq := by
    have hshortest : x.shortest .awayFromZero = ⟨0, 0⟩ := by
      simp only [Binary64.Finite.shortest, h, ↓reduceIte]
    rw [toList_render, hshortest]
    rfl
  whole_digits := ⟨allDigits_replicate_zero 1, List.cons_ne_nil _ _, Or.inl rfl⟩
  part_digits := allDigits_replicate_zero 1
  part_ne_nil := List.cons_ne_nil _ _
  value_eq := congrArg Binary64.finite (eq_zero_of_isZero h).symm

/-- The text of a float has digits on both sides of its point, and they write the float. -/
theorem exists_decimal (x : Binary64.Finite) : ∃ whole part, Decimal x whole part := by
  cases hzero : x.isZero with
  | true => exact ⟨_, _, decimal_of_isZero hzero⟩
  | false =>
    have hcontains := Binary64.Finite.contains_shortest hzero .awayFromZero
    have hdigits : (x.shortest .awayFromZero).digits ≠ 0 := by
      intro hd
      have hbounds := Binary64.Finite.bounds_of_contains hzero hcontains
      rw [hd, Nat.cast_zero, zero_mul] at hbounds
      exact absurd hbounds.1 (by norm_num)
    obtain ⟨whole, part, h⟩ := exists_positional (allDigits_toDigits _) Nat.toDigits_ne_nil
      (head?_toDigits hdigits) (x.shortest .awayFromZero).exponent
    refine ⟨whole, part, by rw [toList_render, h.text_eq], h.whole_digits, h.part_digits,
      h.part_ne_nil, Binary64.Finite.ofDecimal_of_contains hzero ?_⟩
    rwa [h.value_eq, numberOf_toDigits]

end Floats

end ControlLoop.Toml
