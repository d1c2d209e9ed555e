import Phase.Directory.Parts

/-! The form the directory keeps of an announced URL is a fixed point and never longer than what
was announced, except that what its trailing slashes hid may be white space. -/
namespace Phase.Directory
open Fallible Trimming List

/-- No white space stands right before the trailing slashes of the trimmed input. -/
def ClosesClean (raw : Text) : Prop :=
  ∀ c ∈ (trimEndMatches '/' (trim raw)).getLast?, isWhitespace c = false

theorem scheme_dark : ∀ c ∈ scheme, isWhitespace c = false := by
  simp [scheme, isWhitespace]

theorem scheme_head (text : Text) : (scheme ++ text).dropWhile isWhitespace = scheme ++ text :=
  dropWhile_append_of_head (by simp [scheme, isWhitespace])

/-- White space goes around a URL, and at the end of its path. -/
theorem trim_url {before authority rest after : Text} (front : ∀ c ∈ before, isWhitespace c)
    (back : ∀ c ∈ after, isWhitespace c) (dark : ∀ c ∈ authority, isWhitespace c = false) :
    trim (before ++ (scheme ++ (authority ++ rest)) ++ after) =
      scheme ++ (authority ++ rest.rdropWhile isWhitespace) := by
  rw [trim, append_assoc, dropWhile_append_of_pos front, append_assoc, scheme_head,
    ← append_assoc, rdropWhile_append_of_all back, rdropWhile_append_of_none scheme_dark,
    rdropWhile_append_of_none dark]

theorem trim_built {authority rest : Text} (dark : ∀ c ∈ authority, isWhitespace c = false) :
    trim (scheme ++ (authority ++ rest)) =
      scheme ++ (authority ++ rest.rdropWhile isWhitespace) := by
  have whole := @trim_url [] authority rest [] (by simp) (by simp) dark
  simpa using whole

theorem portSuffix_plain {port : Option Nat} {c : Char} (mem : c ∈ portSuffix port) :
    c = ':' ∨ Plain c := by
  cases port with
  | none => cases mem
  | some port =>
    rw [portSuffix] at mem
    split at mem
    · cases mem
    · obtain rfl | mem := mem_cons.mp mem
      · exact .inl rfl
      · exact .inr (plain_of_digit (toDigits_isDigit mem))

theorem colon_dark : isWhitespace ':' = false := by simp [isWhitespace]

theorem dark_of_plain {authority : Text} (plain : ∀ c ∈ authority, c = ':' ∨ Plain c) :
    ∀ c ∈ authority, isWhitespace c = false := by
  intro c mem
  obtain rfl | plain := plain c mem
  · exact colon_dark
  · exact plain.not_whitespace

namespace Reads
variable {trimmed authority host : Text} {parts : UrlParts}

section
variable (reads : Reads trimmed authority host parts)
include reads

theorem host_plain : ∀ c ∈ host, Plain c := by
  have valid := reads.valid
  rw [← reads.host] at valid
  obtain ⟨name, dot, rfl, rooted, -, same⟩ := exists_undotted valid.undotted
  have plain := valid.plain
  rw [same] at plain
  intro c mem
  obtain mem | mem := mem_append.mp mem
  · exact lowered_plain plain c mem
  · obtain rfl | rfl := rooted
    · cases mem
    · obtain rfl := mem_singleton.mp mem
      exact ⟨by decide, by decide, by decide, by decide, by decide⟩

theorem authority_plain : ∀ c ∈ authority, c = ':' ∨ Plain c := by
  intro c mem
  obtain ⟨rfl, -, -⟩ | ⟨text, port, rfl, -, read, -, -⟩ := splitPort_ok reads.split
  · exact .inr (reads.host_plain c mem)
  · obtain mem | mem := mem_append.mp mem
    · exact .inr (reads.host_plain c mem)
    · obtain rfl | mem := mem_cons.mp mem
      · exact .inl rfl
      · exact .inr (port_plain read c mem)

theorem host_nonempty : host ≠ [] := by
  rintro rfl
  have empty : parts.host = [] := by
    rw [← reads.host]
    rfl
  exact reads.valid.nonempty empty

theorem authority_nonempty : authority ≠ [] := by
  obtain ⟨rfl, -, -⟩ | ⟨text, port, rfl, -, -, -, -⟩ := splitPort_ok reads.split
  · exact reads.host_nonempty
  · simp

end

/-- The authority of the form that is kept. -/
def kept (parts : UrlParts) : Text := parts.host ++ portSuffix parts.port

theorem kept_plain (reads : Reads trimmed authority host parts) :
    ∀ c ∈ kept parts, c = ':' ∨ Plain c := by
  intro c mem
  obtain mem | mem := mem_append.mp mem
  · exact .inr (reads.valid.plain c mem)
  · exact portSuffix_plain mem

theorem rebuild_eq (parts : UrlParts) :
    parts.rebuild = scheme ++ (kept parts ++ trimEndMatches '/' parts.path) := by
  simp [UrlParts.rebuild, kept]

section
variable (reads : Reads trimmed authority host parts)
include reads

/-- The form that is kept survives trimming if nothing blank closes the path. -/
theorem trim_rebuild :
    trim parts.rebuild = scheme ++ (kept parts ++
      (trimEndMatches '/' parts.path).rdropWhile isWhitespace) := by
  rw [rebuild_eq, trim_built (dark_of_plain reads.kept_plain)]

theorem closing :
    trimEndMatches '/' trimmed = scheme ++ (authority ++ trimEndMatches '/' parts.path) := by
  have inside : ∀ c ∈ authority, decide (c = '/') = false := by
    intro c mem
    simpa using reads.inside c mem
  have cut : trimEndMatches '/' (authority ++ parts.path) =
      authority ++ trimEndMatches '/' parts.path := rdropWhile_append_of_none inside
  rw [reads.text, ← cut]
  apply rdropWhile_append_of_ne_nil
  change trimEndMatches '/' (authority ++ parts.path) ≠ []
  rw [cut]
  simp [reads.authority_nonempty]

theorem closes_iff :
    (∀ c ∈ (trimEndMatches '/' trimmed).getLast?, isWhitespace c = false) ↔
      (trimEndMatches '/' parts.path).rdropWhile isWhitespace = trimEndMatches '/' parts.path := by
  rw [reads.closing, ← rdropWhile_eq_self, rdropWhile_append_of_none scheme_dark,
    rdropWhile_append_of_none (dark_of_plain reads.authority_plain)]
  simp

theorem kept_le : byteLen (kept parts) ≤ byteLen authority := by
  have names : byteLen parts.host ≤ byteLen host := by
    rw [byteLen_plain reads.valid.plain, byteLen_plain reads.host_plain, ← reads.host,
      canonicalHost]
    split <;> simp [toAsciiLowercase]
  rw [kept, byteLen_append]
  obtain ⟨rfl, -, none⟩ | ⟨text, port, rfl, -, read, -, some⟩ := splitPort_ok reads.split
  · rw [none]
    simpa [portSuffix] using names
  · have ports : byteLen (portSuffix (.some port)) ≤ byteLen (':' :: text) := by
      rw [portSuffix]
      split
      · exact Nat.zero_le _
      · have := length_toDigits_le read
        rw [byteLen_cons, byteLen_cons, byteLen_plain (port_plain read),
          byteLen_plain fun c mem => plain_of_digit (toDigits_isDigit mem)]
        omega
    rw [some, byteLen_append]
    omega

end

theorem byteLen_rdropWhile_le (p : Char → Bool) (text : Text) :
    byteLen (text.rdropWhile p) ≤ byteLen text := by
  obtain ⟨cut, whole, -⟩ := @rdropWhile_split _ p text
  have := congrArg byteLen whole
  rw [byteLen_append] at this
  omega

section
variable (reads : Reads trimmed authority host parts)
include reads

theorem rebuild_le : byteLen parts.rebuild ≤ byteLen trimmed := by
  have authorities := reads.kept_le
  have paths : byteLen (trimEndMatches '/' parts.path) ≤ byteLen parts.path :=
    byteLen_rdropWhile_le _ _
  rw [rebuild_eq, reads.text, byteLen_append, byteLen_append, byteLen_append, byteLen_append]
  omega

theorem host_again : canonicalHost parts.host = parts.host := by
  have valid := reads.valid
  rw [← reads.host] at valid
  obtain ⟨name, -, -, -, -, same⟩ := exists_undotted valid.undotted
  rw [canonicalHost_undotted reads.valid.undotted, ← reads.host, same, toAsciiLowercase_idem]

theorem host_uncoloned : ':' ∉ parts.host :=
  fun mem => (reads.valid.plain ':' mem).2.2.2.1 rfl

end

/-- The port that is still written: not the default one. -/
def keptPort (parts : UrlParts) : Option Nat := parts.port.filter (· ≠ 443)

theorem split_again (reads : Reads trimmed authority host parts) :
    splitPort (kept parts) = .ok (parts.host, keptPort parts) := by
  rw [kept, keptPort]
  obtain ⟨-, -, none⟩ | ⟨text, port, -, -, read, positive, some⟩ := splitPort_ok reads.split
  · rw [none, portSuffix, append_nil]
    exact splitPort_none reads.host_uncoloned
  · rw [some, portSuffix, Option.filter_some]
    by_cases default : port = 443
    · rw [if_pos default, append_nil, if_neg (by simpa using default)]
      exact splitPort_none reads.host_uncoloned
    · rw [if_neg default, if_pos (by simpa using default)]
      obtain ⟨-, -, -, -, -, -, -, fits⟩ := parseU16_some read
      apply splitPort_some _ (parseU16_toDigits fits) positive
      intro mem
      exact (plain_of_digit (toDigits_isDigit mem)).2.2.2.1 rfl

theorem mem_path {c : Char} (mem : c ∈ trimEndMatches '/' parts.path) : c ∈ parts.path :=
  (List.rdropWhile_prefix _ _).subset mem

theorem rooted_again (reads : Reads trimmed authority host parts) :
    trimEndMatches '/' parts.path = [] ∨ (trimEndMatches '/' parts.path).head? = some '/' := by
  obtain ⟨cut, whole, -⟩ := @rdropWhile_split _ (· = '/') parts.path
  cases kept : trimEndMatches '/' parts.path with
  | nil => exact .inl rfl
  | cons c rest =>
    rw [show parts.path.rdropWhile (· = '/') = c :: rest from kept] at whole
    obtain empty | head := reads.rooted
    · rw [empty] at whole
      cases whole
    · rw [whole] at head
      exact .inr head

theorem again (reads : Reads trimmed authority host parts)
    (clean : (trimEndMatches '/' parts.path).rdropWhile isWhitespace =
      trimEndMatches '/' parts.path) :
    Reads (trim parts.rebuild) (kept parts) parts.host
      { host := parts.host, port := keptPort parts, path := trimEndMatches '/' parts.path } := by
  have same := reads.trim_rebuild
  rw [clean] at same
  constructor
  · exact same
  · rw [same]
    exact Nat.le_trans reads.rebuild_le reads.short
  · rw [same]
    intro c mem
    have path : c ∈ scheme ∨ c ∈ parts.path → isControl c = false := by
      intro mem
      apply reads.quiet
      rw [reads.text]
      simp only [mem_append]
      tauto
    obtain mem | mem := mem_append.mp mem
    · exact path (.inl mem)
    · obtain mem | mem := mem_append.mp mem
      · obtain rfl | plain := reads.kept_plain c mem
        · simp [isControl]
        · exact plain.not_control
      · exact path (.inr (mem_path mem))
  · intro c mem
    obtain mem | mem := mem_append.mp mem
    · obtain rfl | plain := reads.kept_plain c mem
      · decide
      · exact plain.not_barred
    · exact reads.unbarred c (mem_append_right _ (mem_path mem))
  · exact reads.rooted_again
  · intro c mem
    obtain rfl | plain := reads.kept_plain c mem
    · decide
    · exact plain.2.2.1
  · exact reads.split_again
  · exact reads.host_again
  · exact reads.valid

theorem portSuffix_keptPort (parts : UrlParts) :
    portSuffix (keptPort parts) = portSuffix parts.port := by
  unfold keptPort
  cases parts.port with
  | none => rfl
  | some port =>
    by_cases default : port = 443
    · simp [default, portSuffix, Option.filter]
    · simp [default, Option.filter]

end Reads

theorem normalizeAnnouncedUrl_ok {raw url : Text} :
    normalizeAnnouncedUrl raw = .ok url ↔
      ∃ parts, announcedParts raw = .ok parts ∧ parts.rebuild = url :=
  map_eq_ok

theorem normalize_again {raw url : Text} (passed : normalizeAnnouncedUrl raw = .ok url) :
    normalizeAnnouncedUrl url = .ok url ↔ ClosesClean raw := by
  obtain ⟨parts, read, rfl⟩ := normalizeAnnouncedUrl_ok.mp passed
  obtain ⟨authority, host, reads⟩ := announcedParts_ok.mp read
  rw [ClosesClean, reads.closes_iff]
  constructor
  · intro same
    obtain ⟨parts', read', rebuilt⟩ := normalizeAnnouncedUrl_ok.mp same
    obtain ⟨authority', host', reads'⟩ := announcedParts_ok.mp read'
    -- Whatever trimming takes away is missing from the second result.
    have short := reads'.rebuild_le
    rw [rebuilt, reads.trim_rebuild, Reads.rebuild_eq, byteLen_append, byteLen_append,
      byteLen_append, byteLen_append] at short
    obtain ⟨cut, whole, -⟩ := @rdropWhile_split _ isWhitespace (trimEndMatches '/' parts.path)
    have sizes := congrArg byteLen whole
    rw [byteLen_append] at sizes
    have empty : cut = [] := byteLen_eq_zero (by omega)
    rw [empty, append_nil] at whole
    exact whole.symm
  · intro clean
    apply normalizeAnnouncedUrl_ok.mpr
    refine ⟨_, announcedParts_ok.mpr ⟨_, _, reads.again clean⟩, ?_⟩
    rw [Reads.rebuild_eq, Reads.rebuild_eq, Reads.kept]
    rw [Reads.portSuffix_keptPort]
    congr 2
    exact rdropWhile_idempotent _ _

theorem normalize_short {raw url : Text} (passed : normalizeAnnouncedUrl raw = .ok url) :
    byteLen url ≤ maxServerUrlLen := by
  obtain ⟨parts, read, rfl⟩ := normalizeAnnouncedUrl_ok.mp passed
  obtain ⟨authority, host, reads⟩ := announcedParts_ok.mp read
  exact Nat.le_trans reads.rebuild_le reads.short

end Phase.Directory
