import LoopLowering.Proofs.Token.Extent

/-! Which number lexemes stand for a number: all with a point, an exponent or a suffix, and all
integers but those without a digit behind the letter of their base and those with a digit from eight
on behind a zero. -/

namespace LoopLowering.Token

open Text Number

lemma decimalValue?_of_isDecimal {c : Char} (h : isDecimal c = true) :
    ∃ v < 10, decimalValue? c = some v ∧ digitValue? c = some v := by
  obtain ⟨v, hv⟩ := Option.isSome_iff_exists.mp h
  refine ⟨v, ?_, hv, by rw [digitValue?, hv]⟩
  rw [decimalValue?, Option.map_eq_some_iff] at hv
  obtain ⟨z, hz, rfl⟩ := hv
  have hrange := List.find?_some hz
  simp only [Bool.and_eq_true, decide_eq_true_eq] at hrange
  omega

lemma decimalValue?_eq_none {c : Char} (h : 58 ≤ c.toNat) (h' : c.toNat < 1632) :
    decimalValue? c = none := by
  rw [← Option.not_isSome_iff_eq_none]
  intro hdecimal
  have := isDecimal_range (c := c) hdecimal
  omega

lemma digitValue?_of_isHex {c : Char} (h : isHex c = true) : ∃ v < 16, digitValue? c = some v := by
  simp only [isHex, Bool.or_eq_true, Bool.and_eq_true, decide_eq_true_eq] at h
  rcases h with (⟨h0, h9⟩ | ⟨ha, hf⟩) | ⟨ha, hf⟩
  · have hdecimal : isDecimal c = true := by
      rw [isDecimal, decimalValue?, Option.isSome_map, List.find?_isSome]
      refine ⟨0x30, by decide, ?_⟩
      have h0 : 48 ≤ c.toNat := h0
      have h9 : c.toNat ≤ 57 := h9
      simp only [Bool.and_eq_true, decide_eq_true_eq]
      omega
    obtain ⟨v, hv, -, hvalue⟩ := decimalValue?_of_isDecimal hdecimal
    exact ⟨v, by omega, hvalue⟩
  · have hrange : 97 ≤ c.toNat ∧ c.toNat ≤ 102 := ⟨ha, hf⟩
    refine ⟨c.toNat - 87, by omega, ?_⟩
    rw [digitValue?, decimalValue?_eq_none (by omega) (by omega)]
    have hz : c ≤ 'z' := Nat.le_trans (m := 102) hrange.2 (by decide)
    simp [ha, hz]
  · have hrange : 65 ≤ c.toNat ∧ c.toNat ≤ 70 := ⟨ha, hf⟩
    refine ⟨c.toNat - 55, by omega, ?_⟩
    rw [digitValue?, decimalValue?_eq_none (by omega) (by omega)]
    have hz : c ≤ 'Z' := Nat.le_trans (m := 70) hrange.2 (by decide)
    have hlower : ¬ 'a' ≤ c := fun h => absurd (show 97 ≤ c.toNat from h) (by omega)
    simp [ha, hz, hlower]

lemma readNat?_isSome_iff {base : Nat} {cs : List Char} :
    (readNat? base cs).isSome ↔ cs ≠ [] ∧ ∀ c ∈ cs, ∃ v < base, digitValue? c = some v := by
  have key : ∀ m, (cs.foldlM (fun n c => do
      let v ← digitValue? c
      if v < base then some (n * base + v) else none) m).isSome ↔
        ∀ c ∈ cs, ∃ v < base, digitValue? c = some v := by
    induction cs with
    | nil => simp
    | cons c cs ih =>
      intro m
      rw [List.foldlM_cons, List.forall_mem_cons]
      cases hc : digitValue? c with
      | none => simp
      | some v =>
        by_cases hv : v < base
        · simpa [hv] using ih _
        · simp [hv]
  rw [readNat?]
  cases cs with
  | nil => simp
  | cons c cs => simpa using key 0

inductive ExponentForm : List Char → Prop
  | none : ExponentForm []
  | some {e : Char} {sign ds : List Char} (letter : e = 'e' ∨ e = 'E')
      (signed : sign = [] ∨ sign = ['+'] ∨ sign = ['-']) (nonempty : ds ≠ [])
      (digits : ∀ d ∈ ds, isDecimal d = true) : ExponentForm (e :: (sign ++ ds))

lemma take_leading (p : Char → Bool) (cs : List Char) :
    cs.take (leading p cs) = cs.takeWhile p :=
  (List.prefix_iff_eq_take.mp (List.takeWhile_prefix p)).symm

lemma exponentLength_form (cs : List Char) : ExponentForm (cs.take (exponentLength cs)) := by
  cases cs with
  | nil => exact .none
  | cons e cs =>
    rw [exponentLength]
    split
    · rename_i he
      have hsign : ∃ sign rest, cs = sign ++ rest ∧ (sign = [] ∨ sign = ['+'] ∨ sign = ['-']) ∧
          (if cs.head? = some '+' || cs.head? = some '-' then 1 else 0) = sign.length := by
        split
        · rename_i h
          cases cs with
          | nil => simp at h
          | cons d cs =>
            refine ⟨[d], cs, rfl, .inr ?_, rfl⟩
            simpa using h
        · exact ⟨[], cs, rfl, .inl rfl, rfl⟩
      obtain ⟨sign, rest, rfl, hsigned, hlength⟩ := hsign
      rw [hlength]
      dsimp only
      rw [List.drop_left]
      split
      · exact .none
      · rename_i hne
        rw [Nat.add_assoc, Nat.add_comm 1, List.take_succ_cons, List.take_add, List.take_left,
          List.drop_left, take_leading]
        refine .some (by simpa using he) hsigned (List.ne_nil_of_length_pos (Nat.pos_of_ne_zero hne))
          fun d hd => List.mem_takeWhile_imp hd
    · exact .none

lemma readExponent?_isSome {cs : List Char} (h : ExponentForm cs) : (readExponent? cs).isSome := by
  cases h with
  | none => rfl
  | @some e sign ds letter signed nonempty digits =>
    have hsplit : (splitSign (sign ++ ds)).2 = ds := by
      rcases signed with rfl | rfl | rfl
      · obtain ⟨d, ds, rfl⟩ := List.exists_cons_of_ne_nil nonempty
        have hd := digits d List.mem_cons_self
        have hne : d ≠ '-' ∧ d ≠ '+' := by
          constructor <;> (rintro rfl; revert hd; decide)
        rw [List.nil_append, splitSign]
        · exact fun _ h => hne.1 (List.cons.inj h).1
        · exact fun _ h => hne.2 (List.cons.inj h).1
      · rfl
      · rfl
    have hnat : (readNat? 10 ds).isSome := readNat?_isSome_iff.mpr ⟨nonempty, fun d hd => by
      obtain ⟨v, hv, -, hvalue⟩ := decimalValue?_of_isDecimal (digits d hd)
      exact ⟨v, hv, hvalue⟩⟩
    obtain ⟨n, hn⟩ := Option.isSome_iff_exists.mp hnat
    have hall : ds.all isDecimal = true := List.all_eq_true.mpr digits
    obtain ⟨negative, rest, hrest⟩ : ∃ negative rest, splitSign (sign ++ ds) = (negative, rest) :=
      ⟨_, _, rfl⟩
    obtain rfl : rest = ds := by rw [hrest] at hsplit; exact hsplit
    simp [readExponent?, letter, hrest, hall, hn]

structure FloatForm (whole fraction exponent : List Char) : Prop where
  digits : ∀ c ∈ whole, isDecimal c = true
  point : fraction = [] ∨ ∃ ds, fraction = '.' :: ds ∧ ∀ d ∈ ds, isDecimal d = true
  power : ExponentForm exponent
  digit : ∃ c ∈ whole ++ fraction, isDecimal c = true

lemma ExponentForm.head {cs : List Char} (h : ExponentForm cs) :
    ∀ c ∈ cs.head?, isDecimal c = false ∧ c ≠ '.' := by
  cases h with
  | none => simp
  | some letter =>
    rintro c ⟨⟩
    rcases letter with rfl | rfl <;> decide

lemma takeWhile_decimals {ds rest : List Char} (hds : ∀ d ∈ ds, isDecimal d = true)
    (hrest : ∀ c ∈ rest.head?, isDecimal c = false) :
    (ds ++ rest).takeWhile isDecimal = ds ∧ (ds ++ rest).dropWhile isDecimal = rest := by
  rw [List.takeWhile_append_of_pos hds, List.dropWhile_append_of_pos hds]
  cases rest with
  | nil => simp
  | cons c rest => simp [hrest c rfl]

lemma readNat?_decimals {ds : List Char} (hds : ∀ d ∈ ds, isDecimal d = true) {c : Char}
    (hc : c ∈ ds) : ∃ n, readNat? 10 ds = some n := by
  refine Option.isSome_iff_exists.mp (readNat?_isSome_iff.mpr ⟨List.ne_nil_of_mem hc, ?_⟩)
  intro d hd
  obtain ⟨v, hv, -, hvalue⟩ := decimalValue?_of_isDecimal (hds d hd)
  exact ⟨v, hv, hvalue⟩

lemma readDecimal?_isSome {whole fraction exponent : List Char}
    (h : FloatForm whole fraction exponent) :
    (readDecimal? false (whole ++ (fraction ++ exponent))).isSome := by
  obtain ⟨hwhole, hfraction, hexponent, c, hc, hdecimal⟩ := h
  obtain ⟨e, he⟩ := Option.isSome_iff_exists.mp (readExponent?_isSome hexponent)
  rcases hfraction with rfl | ⟨ds, rfl, hds⟩
  · obtain ⟨htake, hdrop⟩ := takeWhile_decimals hwhole fun c hc => (hexponent.head c hc).1
    rw [List.append_nil] at hc
    obtain ⟨n, hn⟩ := readNat?_decimals hwhole hc
    rw [readDecimal?, List.nil_append]
    simp only [htake, hdrop]
    split
    · exact absurd rfl (hexponent.head '.' rfl).2
    · simp [hn, he]
  · obtain ⟨htake, hdrop⟩ := @takeWhile_decimals whole ('.' :: (ds ++ exponent)) hwhole
      (by rintro c ⟨⟩; decide)
    obtain ⟨htake', hdrop'⟩ := takeWhile_decimals hds fun c hc => (hexponent.head c hc).1
    have hmem : c ∈ whole ++ ds := by
      refine (List.mem_append.mp hc).elim (List.mem_append_left _) fun hc => ?_
      refine List.mem_append_right _ ((List.mem_cons.mp hc).resolve_left ?_)
      rintro rfl
      cases hdecimal
    obtain ⟨n, hn⟩ := readNat?_decimals
      (fun d hd => (List.mem_append.mp hd).elim (hwhole d) (hds d)) hmem
    rw [readDecimal?, List.cons_append]
    simp [htake, hdrop, htake', hdrop', hn, he]

lemma wholeLength_form (cs : List Char) :
    (∀ c ∈ cs.take (wholeLength cs), isDecimal c = true ∨ c = '_') ∧
      (wholeLength cs ≠ 0 → ∃ c ∈ cs.take (wholeLength cs), isDecimal c = true) := by
  rw [wholeLength]
  split
  · rename_i hhead
    rw [take_leading]
    refine ⟨fun c hc => by simpa using List.mem_takeWhile_imp hc, fun _ => ?_⟩
    cases cs with
    | nil => simp at hhead
    | cons c cs =>
      have hc : isDecimal c = true := by simpa using hhead
      refine ⟨c, ?_, hc⟩
      rw [List.takeWhile_cons, if_pos (by simp [hc])]
      exact List.mem_cons_self
  · simp

lemma suffixLength_form (letters cs : List Char) :
    ∀ c ∈ cs.take (suffixLength letters cs), c ∈ letters := by
  cases cs with
  | nil => simp
  | cons d cs =>
    rw [suffixLength]
    split
    · rename_i hd
      simpa using hd
    · simp

lemma filter_form {whole fraction exponent : List Char}
    (hwhole : ∀ c ∈ whole, isDecimal c = true ∨ c = '_')
    (hpoint : fraction = [] ∨ ∃ ds, fraction = '.' :: ds ∧ ∀ d ∈ ds, isDecimal d = true)
    (hpower : ExponentForm exponent) (hdigit : ∃ c ∈ whole ++ fraction, isDecimal c = true)
    {suffix : List Char} (hsuffix : ∀ c ∈ suffix, c ∈ floatSuffix) :
    ∃ ds, FloatForm ds fraction exponent ∧
      (whole ++ (fraction ++ (exponent ++ suffix))).filter
        (fun c => !floatSuffix.contains c && c ≠ '_') = ds ++ (fraction ++ exponent) := by
  have hdecimal : ∀ c, isDecimal c = true → (!floatSuffix.contains c && c ≠ '_') = true := by
    intro c hc
    have hne : ∀ d, isDecimal d = false → c ≠ d := by
      rintro d hd rfl
      rw [hc] at hd
      cases hd
    simp [floatSuffix, hne 'f' (by decide), hne 'F' (by decide), hne 'd' (by decide),
      hne 'D' (by decide), hne '_' (by decide)]
  have hall : ∀ {ds : List Char}, (∀ d ∈ ds, isDecimal d = true) →
      ds.filter (fun c => !floatSuffix.contains c && c ≠ '_') = ds := fun hds =>
    List.filter_eq_self.mpr fun d hd => hdecimal d (hds d hd)
  have hfraction : fraction.filter (fun c => !floatSuffix.contains c && c ≠ '_') = fraction := by
    rcases hpoint with rfl | ⟨ds, rfl, hds⟩
    · rfl
    · rw [List.filter_cons_of_pos (by decide), hall hds]
  have hexponent : exponent.filter (fun c => !floatSuffix.contains c && c ≠ '_') = exponent := by
    cases hpower with
    | none => rfl
    | some letter signed nonempty digits =>
      have hsign : ∀ {sign : List Char}, sign = [] ∨ sign = ['+'] ∨ sign = ['-'] →
          sign.filter (fun c => !floatSuffix.contains c && c ≠ '_') = sign := by
        rintro _ (rfl | rfl | rfl) <;> decide
      rw [List.filter_cons_of_pos (by rcases letter with rfl | rfl <;> decide), List.filter_append,
        hsign signed, hall digits]
  have hnone : suffix.filter (fun c => !floatSuffix.contains c && c ≠ '_') = [] :=
    List.filter_eq_nil_iff.mpr fun c hc => by simp [hsuffix c hc]
  refine ⟨whole.filter (fun c => !floatSuffix.contains c && c ≠ '_'), ⟨?_, hpoint, hpower, ?_⟩, ?_⟩
  · intro c hc
    obtain ⟨hmem, hne⟩ := List.mem_filter.mp hc
    refine (hwhole c hmem).resolve_right ?_
    rintro rfl
    simp at hne
  · obtain ⟨c, hc, hcd⟩ := hdigit
    refine ⟨c, ?_, hcd⟩
    rcases List.mem_append.mp hc with hc | hc
    · exact List.mem_append_left _ (List.mem_filter.mpr ⟨hc, hdecimal c hcd⟩)
    · exact List.mem_append_right _ hc
  · rw [List.filter_append, List.filter_append, List.filter_append, hfraction, hexponent, hnone,
      List.append_nil]

lemma take_parts (cs : List Char) (whole fraction exponent suffix : Nat) :
    cs.take (whole + fraction + exponent + suffix) = cs.take whole ++
      ((cs.drop whole).take fraction ++ ((cs.drop (whole + fraction)).take exponent ++
        (cs.drop (whole + fraction + exponent)).take suffix)) := by
  rw [List.take_add, List.take_add, List.take_add, List.append_assoc, List.append_assoc]

lemma floatLexeme_of_parts {cs : List Char} {n m : Nat}
    (hpoint : (cs.drop (wholeLength cs)).take n = [] ∨ ∃ ds,
      (cs.drop (wholeLength cs)).take n = '.' :: ds ∧ ∀ d ∈ ds, isDecimal d = true)
    (hdigit : ∃ c ∈ cs.take (wholeLength cs) ++ (cs.drop (wholeLength cs)).take n,
      isDecimal c = true)
    (hm : m = wholeLength cs + n + exponentLength (cs.drop (wholeLength cs + n))) :
    floatLexeme (cs.take (m + suffixLength floatSuffix (cs.drop m))) ≠ .malformed := by
  obtain ⟨ds, hds, hfilter⟩ := filter_form (wholeLength_form cs).1 hpoint (exponentLength_form _)
    hdigit (suffixLength_form floatSuffix _)
  obtain ⟨x, hx⟩ := Option.isSome_iff_exists.mp (readDecimal?_isSome hds)
  subst hm
  rw [floatLexeme, take_parts, hfilter]
  simp [hx]

lemma floatLexeme_ne_malformed {cs : List Char} {n : Nat} (h : floatLength? cs = some n) :
    floatLexeme (cs.take n) ≠ .malformed := by
  have hdigit := (wholeLength_form cs).2
  rw [floatLength?] at h
  dsimp only at h
  split at h
  · rename_i rest hrest
    split at h
    · cases h
    · rename_i hsome
      obtain rfl := Option.some.inj h
      have hfraction : (cs.drop (wholeLength cs)).take (1 + leading isDecimal rest) =
          '.' :: rest.takeWhile isDecimal := by
        rw [hrest, Nat.add_comm, List.take_succ_cons, take_leading]
      refine floatLexeme_of_parts (n := 1 + leading isDecimal rest) (.inr ⟨_, hfraction, ?_⟩) ?_
        (by rw [← Nat.add_assoc])
      · exact fun d hd => List.mem_takeWhile_imp hd
      · rw [hfraction]
        by_cases hzero : wholeLength cs = 0
        · have hne : leading isDecimal rest ≠ 0 := fun h0 => hsome (by simp [hzero, h0])
          obtain ⟨d, hd⟩ := List.exists_mem_of_length_pos (Nat.pos_of_ne_zero hne)
          exact ⟨d, by simp [hd], List.mem_takeWhile_imp hd⟩
        · obtain ⟨c, hc, hcd⟩ := hdigit hzero
          exact ⟨c, List.mem_append_left _ hc, hcd⟩
  · split at h
    · cases h
    · rename_i hne
      split at h
      · obtain rfl := Option.some.inj h
        refine floatLexeme_of_parts (n := 0) (.inl rfl) ?_ rfl
        rw [List.take_zero, List.append_nil]
        exact hdigit hne
      · cases h

/-- The characters of an integer that count: neither underscores nor the letter of a suffix. -/
def integerDigits (cs : List Char) : List Char :=
  cs.filter fun c => c ≠ 'l' && c ≠ 'L' && c ≠ '_'

/-- Integers that stand for no number: no digit follows the letter of the base, or a digit from eight
on, of any script, follows a zero. -/
inductive NoInteger : List Char → Prop
  | based {b : Char} (letter : b ∈ ['x', 'X', 'b', 'B']) : NoInteger ['0', b]
  | octal {ds : List Char} {d : Char} {v : Nat} (digits : ∀ d ∈ ds, isDecimal d = true)
      (mem : d ∈ ds) (value : decimalValue? d = some v) (large : 8 ≤ v) : NoInteger ('0' :: ds)

inductive IntegerForm : List Char → Prop
  | based {base : Nat} {b : Char} {ds : List Char}
      (letter : b ∈ ['x', 'X'] ∧ base = 16 ∨ b ∈ ['b', 'B'] ∧ base = 2)
      (digits : ∀ d ∈ ds, ∃ v < base, digitValue? d = some v) : IntegerForm ('0' :: b :: ds)
  | decimal {ds : List Char} (nonempty : ds ≠ []) (digits : ∀ d ∈ ds, isDecimal d = true) :
      IntegerForm ds

lemma integerDigits_append (as bs : List Char) :
    integerDigits (as ++ bs) = integerDigits as ++ integerDigits bs := List.filter_append ..

lemma integerDigits_suffix (cs : List Char) :
    integerDigits (cs.take (suffixLength ['l', 'L'] cs)) = [] :=
  List.filter_eq_nil_iff.mpr fun c hc => by
    rcases List.mem_pair.mp (suffixLength_form ['l', 'L'] cs c hc) with rfl | rfl <;> decide

lemma basedLength?_digits_form {letters : List Char} {p : Char → Bool} {cs : List Char} {n : Nat}
    (hletters : ∀ c ∈ letters, c ≠ 'l' ∧ c ≠ 'L' ∧ c ≠ '_')
    (h : basedLength? letters p cs = some n) :
    ∃ b ∈ letters, ∃ ds, integerDigits (cs.take n) = '0' :: b :: ds ∧ ∀ d ∈ ds, p d = true := by
  unfold basedLength? at h
  split at h
  · rename_i b cs
    dsimp only at h
    split at h
    · rename_i hb
      obtain rfl := Option.some.inj h
      have hmem := List.contains_iff_mem.mp (Bool.and_eq_true_iff.mp hb).1
      obtain ⟨hl, hL, hu⟩ := hletters b hmem
      refine ⟨b, hmem, integerDigits (cs.takeWhile fun d => p d || d = '_'), ?_, fun d hd => ?_⟩
      · rw [List.take_succ_cons, List.take_succ_cons, take_leading, integerDigits,
          List.filter_cons_of_pos (by decide), List.filter_cons_of_pos (by simp [hl, hL, hu])]
        rfl
      · obtain ⟨hd, hne⟩ := List.mem_filter.mp hd
        have hdigit := List.mem_takeWhile_imp hd
        simp only [Bool.or_eq_true, decide_eq_true_eq] at hdigit
        refine hdigit.resolve_right ?_
        rintro rfl
        simp at hne
    · cases h
  · cases h

lemma integerLength?_form {cs : List Char} {n : Nat} (h : integerLength? cs = some n) :
    IntegerForm (integerDigits (cs.take n)) := by
  rw [integerLength?, Option.map_eq_some_iff] at h
  obtain ⟨m, hm, rfl⟩ := h
  rw [List.take_add, integerDigits_append, integerDigits_suffix, List.append_nil]
  rw [Option.or_eq_some_iff, Option.or_eq_some_iff] at hm
  rcases hm with hm | ⟨-, hm | ⟨-, hm⟩⟩
  · obtain ⟨x, hx, ds, heq, hds⟩ := basedLength?_digits_form (by simp) hm
    rw [heq]
    exact .based (.inl ⟨hx, rfl⟩) fun d hd => digitValue?_of_isHex (hds d hd)
  · obtain ⟨b, hb, ds, heq, hds⟩ := basedLength?_digits_form (by simp) hm
    rw [heq]
    refine .based (.inr ⟨hb, rfl⟩) fun d hd => ?_
    have hd : d = '0' ∨ d = '1' := by simpa using hds d hd
    rcases hd with rfl | rfl
    · exact ⟨0, by decide⟩
    · exact ⟨1, by decide⟩
  · split at hm
    · cases hm
    · rename_i hne
      obtain rfl := Option.some.inj hm
      obtain ⟨hwhole, hdigit⟩ := wholeLength_form cs
      obtain ⟨c, hc, hdecimal⟩ := hdigit hne
      refine .decimal (List.ne_nil_of_mem (List.mem_filter.mpr ⟨hc, ?_⟩)) fun d hd => ?_
      · have hother : ∀ d, isDecimal d = false → c ≠ d := by
          rintro d hd rfl
          rw [hdecimal] at hd
          cases hd
        simp [hother 'l' (by decide), hother 'L' (by decide), hother '_' (by decide)]
      · obtain ⟨hd, hunder⟩ := List.mem_filter.mp hd
        refine (hwhole d hd).resolve_right ?_
        rintro rfl
        simp at hunder

lemma readNat?_eq_none_iff {base : Nat} {cs : List Char} :
    readNat? base cs = none ↔ cs = [] ∨ ∃ c ∈ cs, ∀ v, digitValue? c = some v → base ≤ v := by
  rw [← Option.not_isSome_iff_eq_none, readNat?_isSome_iff]
  constructor
  · intro h
    by_cases hcs : cs = []
    · exact .inl hcs
    · refine .inr ?_
      by_contra hno
      refine h ⟨hcs, fun c hc => ?_⟩
      by_contra hc'
      refine hno ⟨c, hc, fun v hv => ?_⟩
      by_contra hlt
      exact hc' ⟨v, Nat.lt_of_not_le hlt, hv⟩
  · rintro (rfl | ⟨c, hc, hlarge⟩) ⟨hne, hall⟩
    · exact hne rfl
    · obtain ⟨v, hv, hvalue⟩ := hall c hc
      exact absurd (hlarge v hvalue) (Nat.not_le_of_lt hv)

lemma noInteger_based {b : Char} {ds : List Char} (hb : isDecimal b = false)
    (letter : b ∈ ['x', 'X', 'b', 'B']) : NoInteger ('0' :: b :: ds) ↔ ds = [] := by
  constructor
  · intro h
    cases h with
    | based => rfl
    | octal digits =>
      have := digits b List.mem_cons_self
      rw [hb] at this
      cases this
  · rintro rfl
    exact .based letter

lemma noInteger_decimal {ds : List Char} (digits : ∀ d ∈ ds, isDecimal d = true) :
    NoInteger ds ↔ ∃ os, ds = '0' :: os ∧ ∃ d ∈ os, ∀ v, digitValue? d = some v → 8 ≤ v := by
  constructor
  · intro h
    cases h with
    | @based b letter =>
      have hb := digits b (by simp)
      simp only [List.mem_cons, List.not_mem_nil, or_false] at letter
      rcases letter with rfl | rfl | rfl | rfl <;> cases hb
    | @octal os d v _ mem value large =>
      refine ⟨os, rfl, d, mem, fun w hw => ?_⟩
      obtain ⟨u, -, hu, hu'⟩ := decimalValue?_of_isDecimal (digits d (List.mem_cons_of_mem _ mem))
      obtain rfl := Option.some.inj (hu.symm.trans value)
      obtain rfl := Option.some.inj (hu'.symm.trans hw)
      exact large
  · rintro ⟨os, rfl, d, hd, hlarge⟩
    obtain ⟨v, -, hv, hv'⟩ := decimalValue?_of_isDecimal (digits d (List.mem_cons_of_mem _ hd))
    exact .octal (fun d hd => digits d (List.mem_cons_of_mem _ hd)) hd hv (hlarge v hv')

lemma integerValue?_eq_none_iff {cs : List Char} (h : IntegerForm cs) :
    integerValue? cs = none ↔ NoInteger cs := by
  cases h with
  | @based base b ds letter digits =>
    obtain ⟨hb, hletter, hvalue⟩ : isDecimal b = false ∧ b ∈ ['x', 'X', 'b', 'B'] ∧
        integerValue? ('0' :: b :: ds) = readNat? base ds := by
      rcases letter with ⟨hb, rfl⟩ | ⟨hb, rfl⟩
      · rcases List.mem_pair.mp hb with rfl | rfl <;> exact ⟨by decide, by decide, rfl⟩
      · rcases List.mem_pair.mp hb with rfl | rfl <;> exact ⟨by decide, by decide, rfl⟩
    rw [hvalue, readNat?_eq_none_iff, noInteger_based hb hletter, or_iff_left]
    rintro ⟨d, hd, hlarge⟩
    obtain ⟨v, hv, hdv⟩ := digits d hd
    exact absurd (hlarge v hdv) (Nat.not_le_of_lt hv)
  | decimal nonempty digits =>
    have hsmall : ¬ ∃ c ∈ cs, ∀ v, digitValue? c = some v → 10 ≤ v := by
      rintro ⟨c, hc, hlarge⟩
      obtain ⟨v, hv, -, hvalue⟩ := decimalValue?_of_isDecimal (digits c hc)
      exact absurd (hlarge v hvalue) (Nat.not_le_of_lt hv)
    rw [noInteger_decimal digits]
    by_cases hoctal : ∃ d os, cs = '0' :: d :: os
    · obtain ⟨d, os, rfl⟩ := hoctal
      have hd : isDecimal d = true := digits d (by simp)
      have hne : ∀ c, isDecimal c = false → d ≠ c := by
        rintro c hc rfl
        rw [hd] at hc
        cases hc
      have hvalue : integerValue? ('0' :: d :: os) = readNat? 8 (d :: os) := by
        simp [integerValue?, hne 'x' (by decide), hne 'X' (by decide), hne 'b' (by decide),
          hne 'B' (by decide)]
      simp [hvalue, readNat?_eq_none_iff]
    · have hvalue : integerValue? cs = readNat? 10 cs := by
        rw [integerValue?]
        exact fun d os h => hoctal ⟨d, os, h⟩
      rw [hvalue, readNat?_eq_none_iff]
      constructor
      · rintro (h | h)
        · exact absurd h nonempty
        · exact absurd h hsmall
      · rintro ⟨os, rfl, d, hd, -⟩
        obtain ⟨e, os, rfl⟩ := List.exists_cons_of_ne_nil (List.ne_nil_of_mem hd)
        exact absurd ⟨e, os, rfl⟩ hoctal

lemma integerLexeme_eq_malformed_iff {cs : List Char} {n : Nat} (h : integerLength? cs = some n) :
    integerLexeme (cs.take n) = .malformed ↔ NoInteger (integerDigits (cs.take n)) := by
  rw [← integerValue?_eq_none_iff (integerLength?_form h), integerLexeme]
  rw [← integerDigits]
  cases integerValue? (integerDigits (cs.take n)) with
  | none => simp
  | some v => simp

end LoopLowering.Token
