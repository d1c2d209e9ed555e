import Phase.Directory.Url
import Phase.Lib.Fallible
import Phase.Lib.Trimming
import Mathlib

/-! What is known of a URL that passed every rule: its parts, and the characters they are made of. -/
namespace Phase.Directory
open Fallible List Nat

/-- A letter, a digit or a hyphen. -/
def isLdh (c : Char) : Bool := c.isAlphanum || c = '-'

variable {c : Char} {port : Nat}

theorem ldh_range (ldh : isLdh c) :
    c = '-' ∨ (48 ≤ c.toNat ∧ c.toNat ≤ 57) ∨ (65 ≤ c.toNat ∧ c.toNat ≤ 90) ∨
      97 ≤ c.toNat ∧ c.toNat ≤ 122 := by
  simp only [isLdh, Char.isAlphanum, Char.isAlpha, Char.isUpper, Char.isLower, Char.isDigit,
    Bool.or_eq_true, Bool.and_eq_true, decide_eq_true_eq, UInt32.le_iff_toNat_le, ge_iff_le] at ldh
  change (((65 ≤ c.toNat ∧ c.toNat ≤ 90) ∨ 97 ≤ c.toNat ∧ c.toNat ≤ 122) ∨
    48 ≤ c.toNat ∧ c.toNat ≤ 57) ∨ c = '-' at ldh
  tauto

theorem whitespace_range (blank : isWhitespace c) : c.toNat ≤ 32 ∨ 0x85 ≤ c.toNat := by
  simp only [isWhitespace, Bool.or_eq_true, Bool.and_eq_true, decide_eq_true_eq] at blank
  omega

theorem control_range (control : isControl c) : c.toNat ≤ 31 ∨ 127 ≤ c.toNat := by
  simp only [isControl, Bool.or_eq_true, Bool.and_eq_true, decide_eq_true_eq] at control
  omega

theorem digit_range (digit : c.isDigit) : 48 ≤ c.toNat ∧ c.toNat ≤ 57 := by
  simp only [Char.isDigit, Bool.and_eq_true, decide_eq_true_eq, UInt32.le_iff_toNat_le,
    ge_iff_le] at digit
  exact digit

/-- What may stand in a host, with its dots, and in a port after its colon. -/
def Plain (c : Char) : Prop :=
  43 ≤ c.toNat ∧ c.toNat ≤ 122 ∧ c ≠ '/' ∧ c ≠ ':' ∧ c ∉ ['?', '@', '[', '\\']

theorem plain_of_ldh (ldh : isLdh c) : Plain c := by
  obtain rfl | range := ldh_range ldh
  · exact ⟨by decide, by decide, by decide, by decide, by decide⟩
  · refine ⟨by omega, by omega, ?_, ?_, ?_⟩
    · rintro rfl
      simp at range
    · rintro rfl
      simp at range
    · intro barred
      simp only [mem_cons, not_mem_nil, or_false] at barred
      obtain rfl | rfl | rfl | rfl := barred <;> simp at range

theorem plain_of_digit (digit : c.isDigit) : Plain c :=
  plain_of_ldh (by simp [isLdh, Char.isAlphanum, digit])

namespace Plain
variable {c : Char}

theorem not_whitespace (plain : Plain c) : isWhitespace c = false := by
  by_contra blank
  have := whitespace_range (by simpa using blank)
  have := plain.1
  have := plain.2.1
  omega

theorem not_control (plain : Plain c) : isControl c = false := by
  by_contra control
  have := control_range (by simpa using control)
  have := plain.1
  have := plain.2.1
  omega

theorem one_byte (plain : Plain c) : c.utf8Size = 1 := by
  rw [Char.utf8Size_eq_one_iff, UInt32.le_iff_toNat_le]
  have : c.val.toNat ≤ 122 := plain.2.1
  simp only [UInt32.toNat_ofNat]
  omega

theorem not_barred (plain : Plain c) : c ∉ ['?', '#', '@', ' '] := by
  intro barred
  simp only [mem_cons, not_mem_nil, or_false] at barred
  obtain rfl | rfl | rfl | rfl := barred
  · exact plain.2.2.2.2 (by simp)
  · exact absurd plain.1 (by decide)
  · exact plain.2.2.2.2 (by simp)
  · exact absurd plain.1 (by decide)

end Plain

@[simp] theorem byteLen_nil : byteLen [] = 0 := rfl

@[simp] theorem byteLen_append (text text' : Text) :
    byteLen (text ++ text') = byteLen text + byteLen text' := by
  simp [byteLen]

@[simp] theorem byteLen_cons (c : Char) (text : Text) :
    byteLen (c :: text) = c.utf8Size + byteLen text := by
  simp [byteLen]

theorem length_le_byteLen (text : Text) : text.length ≤ byteLen text := by
  induction text with
  | nil => simp
  | cons c text ih =>
    have := Char.utf8Size_pos c
    simp only [length_cons, byteLen_cons]
    omega

variable {text : Text}

theorem byteLen_plain (plain : ∀ c ∈ text, Plain c) : byteLen text = text.length := by
  induction text with
  | nil => rfl
  | cons c text ih =>
    rw [byteLen_cons, (plain c (by simp)).one_byte, ih fun c mem => plain c (by simp [mem])]
    simp [add_comm]

theorem byteLen_eq_zero (empty : byteLen text = 0) : text = [] := by
  have := length_le_byteLen text
  exact length_eq_zero_iff.mp (by omega)

theorem ofDigits_lt {digits : Text} (all : ∀ c ∈ digits, c.isDigit) :
    ofDigits digits < 10 ^ digits.length := by
  suffices run : ∀ sofar, ofDigitChars 10 digits sofar < (sofar + 1) * 10 ^ digits.length by
    simpa [ofDigits] using run 0
  induction digits with
  | nil => simp
  | cons c digits ih =>
    intro sofar
    have digit := digit_range (all c (by simp))
    have rest := ih (fun c mem => all c (by simp [mem])) (10 * sofar + (c.toNat - '0'.toNat))
    rw [ofDigitChars_cons, length_cons, pow_succ']
    have nine : c.toNat - '0'.toNat ≤ 9 := by
      change c.toNat - 48 ≤ 9
      omega
    calc _ < (10 * sofar + (c.toNat - '0'.toNat) + 1) * 10 ^ digits.length := rest
      _ ≤ ((sofar + 1) * 10) * 10 ^ digits.length := mul_le_mul_right _ (by omega)
      _ = _ := mul_assoc ..

theorem toDigits_isDigit (mem : c ∈ toDigits 10 port) : c.isDigit :=
  isDigit_of_mem_toDigits (by omega) (by omega) mem

theorem unsigned_split (text : Text) :
    ∃ sign, text = sign ++ unsigned text ∧ (sign = [] ∨ sign = ['+']) := by
  unfold unsigned
  split
  · exact ⟨['+'], rfl, .inr rfl⟩
  · exact ⟨[], rfl, .inl rfl⟩

theorem unsigned_digits {digits : Text} (all : ∀ c ∈ digits, c.isDigit) :
    unsigned digits = digits := by
  unfold unsigned
  split
  · exact absurd (all '+' (by simp)) (by decide)
  · rfl

/-- What a port is read from: an optional sign and the digits. -/
theorem parseU16_some (read : parseU16 text = some port) :
    ∃ sign digits, text = sign ++ digits ∧ (sign = [] ∨ sign = ['+']) ∧ digits ≠ [] ∧
      (∀ c ∈ digits, c.isDigit) ∧ ofDigits digits = port ∧ port < 2 ^ 16 := by
  obtain ⟨sign, split, signed⟩ := unsigned_split text
  simp only [parseU16] at read
  split at read
  · next fits =>
    cases read
    simp only [Bool.and_eq_true, decide_eq_true_eq, all_eq_true] at fits
    exact ⟨sign, unsigned text, split, signed, fits.1.1, fits.1.2, rfl, fits.2⟩
  · cases read

theorem parseU16_toDigits (fits : port < 2 ^ 16) : parseU16 (toDigits 10 port) = some port := by
  have value : ofDigits (toDigits 10 port) = port := ofDigitChars_ten_toDigits
  have all : ∀ c ∈ toDigits 10 port, c.isDigit := fun c mem => toDigits_isDigit mem
  unfold parseU16
  simp only [unsigned_digits all, value]
  rw [if_pos]
  simp only [Bool.and_eq_true, decide_eq_true_eq, all_eq_true]
  exact ⟨⟨toDigits_ne_nil, all⟩, fits⟩

/-- A port is never written longer than it was read. -/
theorem length_toDigits_le (read : parseU16 text = some port) :
    (toDigits 10 port).length ≤ text.length := by
  obtain ⟨sign, digits, rfl, -, nonempty, all, rfl, -⟩ := parseU16_some read
  have positive : 0 < digits.length := length_pos_iff.mpr nonempty
  rw [length_append]
  apply le_trans _ (le_add_left ..)
  exact (length_toDigits_le_iff (by omega) positive).mpr (ofDigits_lt all)

theorem port_plain (read : parseU16 text = some port) : ∀ c ∈ text, Plain c := by
  obtain ⟨sign, digits, rfl, signed, -, all, -⟩ := parseU16_some read
  intro c mem
  obtain mem | mem := mem_append.mp mem
  · obtain rfl | rfl := signed
    · cases mem
    · obtain rfl := mem_singleton.mp mem
      exact ⟨by decide, by decide, by decide, by decide, by decide⟩
  · exact plain_of_digit (all c mem)

theorem rsplitOnce_some {before after : Text} (split : rsplitOnce c text = some (before, after)) :
    text = before ++ c :: after ∧ c ∉ after := by
  unfold rsplitOnce at split
  split at split
  · cases split
  · next d before' rest =>
    cases split
    have stop : d = c := by
      have := @head_dropWhile_not _ (· ≠ c) text.reverse (by simp only [rest]; simp)
      simpa only [rest, head_cons, decide_eq_false_iff_not, not_not] using this
    subst stop
    constructor
    · have whole := @rdropWhile_append_rtakeWhile _ (· ≠ d) text
      rw [rdropWhile, rest, reverse_cons, append_assoc] at whole
      exact whole.symm
    · intro mem
      simpa using mem_rtakeWhile_imp mem

theorem rsplitOnce_none : rsplitOnce c text = none ↔ c ∉ text := by
  have scan : text.reverse.dropWhile (· ≠ c) = [] ↔ c ∉ text := by
    rw [dropWhile_eq_nil_iff]
    constructor
    · intro all mem
      simpa using all c (mem_reverse.mpr mem)
    · intro absent d mem
      have : d ≠ c := by
        rintro rfl
        exact absent (mem_reverse.mp mem)
      simpa using this
  rw [← scan]
  unfold rsplitOnce
  split
  · next rest => simp only [rest]
  · next rest =>
    rw [rest]
    simp

theorem rsplitOnce_append {before after : Text} (absent : c ∉ after) :
    rsplitOnce c (before ++ c :: after) = some (before, after) := by
  have none : ∀ d ∈ after.reverse, decide (d ≠ c) = true := by
    intro d mem
    have : d ≠ c := by
      rintro rfl
      exact absent (mem_reverse.mp mem)
    simpa using this
  have reversed : (before ++ c :: after).reverse = after.reverse ++ c :: before.reverse := by simp
  rw [rsplitOnce, rtakeWhile, reversed, dropWhile_append_of_pos none, takeWhile_append_of_pos none]
  simp

variable {host : Text}

theorem splitPort_ok {authority : Text} {port : Option Nat}
    (split : splitPort authority = .ok (host, port)) :
    (authority = host ∧ ':' ∉ host ∧ port = none) ∨
      ∃ text number, authority = host ++ ':' :: text ∧ ':' ∉ text ∧
        parseU16 text = some number ∧ 0 < number ∧ port = some number := by
  rw [splitPort] at split
  cases once : rsplitOnce ':' authority with
  | none =>
    simp only [once, Except.ok.injEq, Prod.mk.injEq] at split
    obtain ⟨rfl, rfl⟩ := split
    exact .inl ⟨rfl, rsplitOnce_none.mp once, rfl⟩
  | some parts =>
    obtain ⟨before, text⟩ := parts
    obtain ⟨rfl, absent⟩ := rsplitOnce_some once
    simp only [once] at split
    split at split
    · next number read =>
      cases split
      exact .inr ⟨text, number + 1, rfl, absent, read, by omega, rfl⟩
    · cases split

theorem splitPort_none (absent : ':' ∉ host) : splitPort host = .ok (host, none) := by
  rw [splitPort, rsplitOnce_none.mpr absent]

theorem splitPort_some (absent : ':' ∉ text) (read : parseU16 text = some port)
    (positive : 0 < port) : splitPort (host ++ ':' :: text) = .ok (host, some port) := by
  rw [splitPort, rsplitOnce_append absent]
  simp only [read]
  cases port with
  | zero => omega
  | succ port => rfl

/-- What rule 8 asks of a label. -/
structure IsLabel (label : Text) : Prop where
  nonempty : label ≠ []
  short : byteLen label ≤ 63
  ldh : ∀ c ∈ label, isLdh c
  first : label.head? ≠ some '-'
  last : label.getLast? ≠ some '-'

theorem validateLabel_ok {label : Text} : validateLabel label = .ok () ↔ IsLabel label := by
  have ldh : (label.all fun c => c.isAlphanum || c = '-') = true ↔ ∀ c ∈ label, isLdh c :=
    all_eq_true
  simp only [validateLabel, guard_eq_ok, ite_throw_eq_ok, pure_eq_ok, Bool.not_eq_true',
    Bool.not_eq_false, ldh, List.isEmpty_iff, Bool.or_eq_true, decide_eq_true_eq, and_true]
  constructor
  · rintro ⟨nonempty, short, ldh, ends⟩
    exact ⟨nonempty, by omega, ldh, fun first => ends (.inl first), fun last => ends (.inr last)⟩
  · rintro ⟨nonempty, short, ldh, first, last⟩
    exact ⟨nonempty, by omega, ldh, fun ends => ends.elim first last⟩

/-- What rules 7 to 9 ask of a host. -/
structure IsHost (host : Text) : Prop where
  name : isIpAddr host = false
  two : 2 ≤ (labels host).length
  each : ∀ label ∈ labels host, IsLabel label
  outside : (labels host).getLastD [] ∉ nonPublicTlds

theorem validateHost_ok : validateHost host = .ok () ↔ IsHost host := by
  simp only [validateHost, guard_eq_ok, ite_throw_eq_ok, pure_eq_ok, bind_eq_ok, and_true,
    Bool.not_eq_true, not_lt]
  constructor
  · rintro ⟨name, two, ⟨⟩, each, outside⟩
    have each := forM_eq_ok.mp each
    exact ⟨name, two, fun label mem => validateLabel_ok.mp (each label mem), outside⟩
  · rintro ⟨name, two, each, outside⟩
    have each := forM_eq_ok.mpr fun label mem => validateLabel_ok.mpr (each label mem)
    exact ⟨name, two, (), each, outside⟩

theorem mem_host (mem : c ∈ host) : c = '.' ∨ ∃ label ∈ labels host, c ∈ label := by
  have joined : ['.'].intercalate (labels host) = host := intercalate_splitOn '.'
  rw [← joined] at mem
  obtain dot | label := Trimming.mem_intercalate mem
  · exact .inl (mem_singleton.mp dot)
  · exact .inr label

namespace IsHost
variable {host : Text}

theorem plain (valid : IsHost host) : ∀ c ∈ host, Plain c := by
  intro c mem
  obtain rfl | ⟨label, inside, mem⟩ := mem_host mem
  · exact ⟨by decide, by decide, by decide, by decide, by decide⟩
  · exact plain_of_ldh ((valid.each label inside).ldh c mem)

theorem nonempty (valid : IsHost host) : host ≠ [] := by
  rintro rfl
  have := valid.two
  simp [labels] at this

/-- No root dot is left. -/
theorem undotted (valid : IsHost host) : host.getLast? ≠ some '.' := by
  intro dotted
  obtain ⟨before, rfl⟩ := getLast?_eq_some_iff.mp dotted
  have empty : [] ∈ labels (before ++ ['.']) := by
    rw [labels, splitOn_append_cons_self]
    simp
  exact (valid.each [] empty).nonempty rfl

end IsHost

/-- Only letters change case. -/
theorem eq_of_toLower {d : Char} (same : c.toLower = d) (unlettered : d.isLower = false) :
    c = d := by
  by_cases upper : c.isUpper
  · have letter : c.isAlpha = true := by simp [Char.isAlpha, upper]
    rw [← Char.isLower_toLower_eq_isAlpha, same, unlettered] at letter
    cases letter
  · rw [← same, Char.toLower_eq_of_not_isUpper upper]

theorem plain_of_toLower (plain : Plain c.toLower) : Plain c := by
  by_cases upper : c.isUpper
  · exact plain_of_ldh (by simp [isLdh, Char.isAlphanum, Char.isAlpha, upper])
  · rwa [Char.toLower_eq_of_not_isUpper upper] at plain

@[simp] theorem toAsciiLowercase_idem (text : Text) :
    toAsciiLowercase (toAsciiLowercase text) = toAsciiLowercase text := by
  simp [toAsciiLowercase]

theorem getLast?_toAsciiLowercase :
    (toAsciiLowercase text).getLast? = some '.' ↔ text.getLast? = some '.' := by
  rw [toAsciiLowercase, getLast?_map, Option.map_eq_some_iff]
  constructor
  · rintro ⟨c, last, same⟩
    rwa [← eq_of_toLower same rfl]
  · intro last
    exact ⟨'.', last, rfl⟩

theorem canonicalHost_undotted (undotted : host.getLast? ≠ some '.') :
    canonicalHost host = toAsciiLowercase host := by
  rw [canonicalHost, if_neg (mt getLast?_toAsciiLowercase.mp undotted)]

theorem canonicalHost_dotted (host : Text) :
    canonicalHost (host ++ ['.']) = toAsciiLowercase host := by
  have dotted : (toAsciiLowercase (host ++ ['.'])).getLast? = some '.' :=
    getLast?_toAsciiLowercase.mpr (by simp)
  rw [canonicalHost, if_pos dotted]
  simp [toAsciiLowercase]

/-- A host is one without a root dot, and that dot if it has one. -/
theorem exists_undotted (undotted : (canonicalHost host).getLast? ≠ some '.') :
    ∃ name dot, host = name ++ dot ∧ (dot = [] ∨ dot = ['.']) ∧ name.getLast? ≠ some '.' ∧
      canonicalHost host = toAsciiLowercase name := by
  by_cases dotted : host.getLast? = some '.'
  · obtain ⟨name, rfl⟩ := getLast?_eq_some_iff.mp dotted
    rw [canonicalHost_dotted] at undotted
    exact ⟨name, ['.'], rfl, .inr rfl, mt getLast?_toAsciiLowercase.mpr undotted,
      canonicalHost_dotted name⟩
  · exact ⟨host, [], by simp, .inl rfl, dotted, canonicalHost_undotted dotted⟩

theorem lowered_plain {name : Text} (plain : ∀ c ∈ toAsciiLowercase name, Plain c) :
    ∀ c ∈ name, Plain c := by
  intro c mem
  exact plain_of_toLower (plain _ (mem_map_of_mem mem))

/-- The parts of a trimmed text that passes every rule, with the host as it is written. -/
structure Reads (trimmed authority host : Text) (parts : UrlParts) : Prop where
  text : trimmed = scheme ++ (authority ++ parts.path)
  short : byteLen trimmed ≤ maxServerUrlLen
  quiet : ∀ c ∈ trimmed, isControl c = false
  unbarred : ∀ c ∈ authority ++ parts.path, c ∉ ['?', '#', '@', ' ']
  rooted : parts.path = [] ∨ parts.path.head? = some '/'
  inside : ∀ c ∈ authority, c ≠ '/'
  split : splitPort authority = .ok (host, parts.port)
  host : canonicalHost host = parts.host
  valid : IsHost parts.host

theorem validateToken_ok {field : String} {value : Text} {max : Nat} :
    validateToken field value max = .ok () ↔
      byteLen value ≤ max ∧ ∀ c ∈ value, isControl c = false := by
  simp only [validateToken, guard_eq_ok, ite_throw_eq_ok, pure_eq_ok, and_true, not_lt,
    Bool.not_eq_true, any_eq_false]

theorem announcedParts_ok {raw : Text} {parts : UrlParts} :
    announcedParts raw = .ok parts ↔ ∃ authority host, Reads (trim raw) authority host parts := by
  unfold announcedParts
  simp only [bind_eq_ok]
  constructor
  · rintro ⟨⟨⟩, token, read⟩
    obtain ⟨short, quiet⟩ := validateToken_ok.mp token
    split at read
    · cases read
    · next rest stripped =>
      simp only [guard_eq_ok, bind_eq_ok, pure_eq_ok, Bool.not_eq_true, any_eq_false] at read
      obtain ⟨unbarred, ⟨host, port⟩, split, ⟨⟩, valid, rfl⟩ := read
      have text : scheme ++ rest = trim raw := isPrefixOf?_eq_some_iff_append_eq.mp stripped
      refine ⟨rest.takeWhile (· ≠ '/'), host, ?_, short, quiet, ?_, ?_, ?_, split, rfl,
        validateHost_ok.mp valid⟩
      · rw [takeWhile_append_dropWhile, text]
      · rw [takeWhile_append_dropWhile]
        intro c mem
        simpa using unbarred c mem
      · obtain empty | ⟨c, head, slash⟩ := @Trimming.dropWhile_stop _ (· ≠ '/') rest
        · exact .inl empty
        · obtain rfl : c = '/' := by simpa using slash
          exact .inr head
      · intro c mem
        simpa using mem_takeWhile_imp mem
  · rintro ⟨authority, host, reads⟩
    refine ⟨(), validateToken_ok.mpr ⟨reads.short, reads.quiet⟩, ?_⟩
    have stripped : scheme.isPrefixOf? (trim raw) = some (authority ++ parts.path) :=
      isPrefixOf?_eq_some_iff_append_eq.mpr reads.text.symm
    have cut := Trimming.takeWhile_append_of_stop (p := (· ≠ '/'))
      (fun c mem => by simpa using reads.inside c mem)
      (reads.rooted.imp id fun head => ⟨'/', head, by decide⟩)
    simp only [stripped, guard_eq_ok, bind_eq_ok, pure_eq_ok, Bool.not_eq_true, any_eq_false]
    rw [cut.1, cut.2]
    refine ⟨fun c mem => by simpa using reads.unbarred c mem, _, reads.split, (), ?_, ?_⟩
    · rw [reads.host]
      exact validateHost_ok.mpr reads.valid
    · rw [reads.host]

end Phase.Directory
