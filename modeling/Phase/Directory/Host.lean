import Phase.Directory.Spellings

/-! The host that the directory fetches from, as a WHATWG URL parser reads it: the rules refuse a
strict dotted quad, and no other spelling of an address. -/
namespace Phase.Directory
open Fallible Trimming List

def isRadixDigit : Nat → Char → Bool
  | 16, c => isHexDigit c
  | 8, c => '0' ≤ c && c ≤ '7'
  | _, c => c.isDigit

def hexValue (c : Char) : Nat :=
  if c.isDigit then c.toNat - '0'.toNat
  else if c.isLower then c.toNat - 'a'.toNat + 10
  else c.toNat - 'A'.toNat + 10

def radixOf : Text → Nat × Text
  | '0' :: 'x' :: digits => (16, digits)
  | '0' :: 'X' :: digits => (16, digits)
  | '0' :: c :: digits => (8, c :: digits)
  | digits => (10, digits)

/-- The IPv4 number parser: decimal, octal after a zero, hexadecimal after "0x". -/
def ipv4Number (text : Text) : Option Nat :=
  let (radix, digits) := radixOf text
  if text = [] then none
  else if digits.all (isRadixDigit radix) then
    some (digits.foldl (fun sofar c => radix * sofar + hexValue c) 0)
  else none

/-- The parts of a host, without the empty one of a root dot. -/
def hostParts (host : Text) : List Text :=
  let parts := labels host
  if parts.getLast? = some [] && 1 < parts.length then parts.dropLast else parts

/-- The ends-in-a-number checker. -/
def endsInNumber (host : Text) : Bool :=
  let last := (hostParts host).getLastD []
  (last ≠ [] && last.all Char.isDigit) || (ipv4Number last).isSome

/-- The IPv4 parser: the last of at most four numbers fills the bytes that the others leave. -/
def ipv4Parser (host : Text) : Option Nat := do
  let numbers ← (hostParts host).mapM ipv4Number
  let last := numbers.getLastD 0
  if 4 < numbers.length || numbers.dropLast.any (255 < ·) ||
      256 ^ (5 - numbers.length) ≤ last then none
  else some (last + (numbers.dropLast.mapIdx fun i n => n * 256 ^ (3 - i)).sum)

inductive HostKind
  | ipv6 (inner : Text)
  | ipv4 (address : Option Nat)
  | domain (name : Text)
  deriving DecidableEq

/-- What the host parser makes of an ASCII host in lower case. A host that ends in a number is an
IPv4 address or refused. -/
def hostKind (host : Text) : HostKind :=
  match host with
  | '[' :: inner => .ipv6 inner
  | _ => if endsInNumber host then .ipv4 (ipv4Parser host) else .domain host

/-- The host of an https URL without userinfo. -/
def hostOf (url : Text) : Text :=
  let rest := (infoScheme.isPrefixOf? url).getD url
  let authority := rest.takeWhile fun c => !(['/', '\\', '?', '#'].contains c)
  if authority.head? = some '[' then authority.takeWhile (· ≠ ']') ++ [']']
  else authority.takeWhile (· ≠ ':')

/-- A decimal number, or "0x" and hexadecimal digits. -/
def isNumberLabel (label : Text) : Bool :=
  (label ≠ [] && label.all Char.isDigit) ||
    ([['0', 'x'], ['0', 'X']].contains (label.take 2) && (label.drop 2).all isHexDigit)

/-- A public name that no reader takes for an address. -/
structure IsPublicName (host : Text) : Prop where
  domain : hostKind host = .domain host
  unnumbered : isNumberLabel ((labels host).getLastD []) = false
  two : 2 ≤ (labels host).length
  each : ∀ label ∈ labels host, IsLabel label
  outside : (labels host).getLastD [] ∉ nonPublicTlds

theorem octal_digit {c : Char} (octal : isRadixDigit 8 c) : c.isDigit := by
  simp only [isRadixDigit, Bool.and_eq_true, decide_eq_true_eq] at octal
  simp only [Char.isDigit, Bool.and_eq_true, decide_eq_true_eq, ge_iff_le]
  exact ⟨octal.1, Nat.le_trans octal.2 (by decide)⟩

theorem ipv4Number_eq (label : Text) : (ipv4Number label).isSome =
    (decide (label ≠ []) && (radixOf label).2.all (isRadixDigit (radixOf label).1)) := by
  unfold ipv4Number
  by_cases empty : label = []
  · simp [empty]
  · cases all : (radixOf label).2.all (isRadixDigit (radixOf label).1) <;> simp [empty, all]

theorem isRadixDigit_hex : isRadixDigit 16 = isHexDigit := rfl

theorem isRadixDigit_decimal : isRadixDigit 10 = Char.isDigit := rfl

/-- A label is read as a number exactly when it is spelled as one. -/
theorem number_iff (label : Text) :
    ((label ≠ [] && label.all Char.isDigit) || (ipv4Number label).isSome) =
      isNumberLabel label := by
  rw [ipv4Number_eq, isNumberLabel]
  unfold radixOf
  split
  · simp [isRadixDigit_hex]
  · simp [isRadixDigit_hex]
  · next c digits notx notX =>
    -- Octal digits are decimal ones, so an octal number is a decimal one too.
    have small : (c :: digits).all (isRadixDigit 8) → (c :: digits).all Char.isDigit := by
      intro all
      rw [all_eq_true] at all ⊢
      exact fun d mem => octal_digit (all d mem)
    have plain : [['0', 'x'], ['0', 'X']].contains (take 2 ('0' :: c :: digits)) = false := by
      have notx : c ≠ 'x' := notx
      have notX : c ≠ 'X' := notX
      simp [notx, notX]
    rw [plain]
    cases octal : (c :: digits).all (isRadixDigit 8) with
    | false => simp only [Bool.and_false, Bool.or_false, Bool.false_and]
    | true =>
      have zero : '0'.isDigit = true := rfl
      simp [zero, small octal]
  · next notx notX notzero =>
    have plain : [['0', 'x'], ['0', 'X']].contains (take 2 label) = false := by
      cases label with
      | nil => rfl
      | cons a rest =>
        cases rest with
        | nil => simp
        | cons b rest =>
          by_contra read
          have here : (a = '0' ∧ b = 'x') ∨ a = '0' ∧ b = 'X' := by
            simp only [take_succ_cons, take_zero, contains_eq_mem, mem_cons,
              cons.injEq, and_true, not_mem_nil, or_false, Bool.not_eq_false,
              decide_eq_true_eq] at read
            exact read
          obtain ⟨rfl, rfl⟩ | ⟨rfl, rfl⟩ := here
          · exact notx _ rfl
          · exact notX _ rfl
    rw [plain, isRadixDigit_decimal, Bool.or_self, Bool.false_and, Bool.or_false]

/-- Without a root dot, a host ends in a number when its last label is one. -/
theorem endsInNumber_eq {host : Text} (valid : IsHost host) :
    endsInNumber host = isNumberLabel ((labels host).getLastD []) := by
  have parts : hostParts host = labels host := by
    have last : (labels host).getLast? ≠ some [] := by
      intro last
      exact (valid.each [] (mem_of_getLast? last)).nonempty rfl
    simp [hostParts, last]
  rw [endsInNumber, parts]
  exact number_iff _

theorem hostKind_domain {host : Text} (valid : IsHost host) :
    hostKind host = .domain host ↔ isNumberLabel ((labels host).getLastD []) = false := by
  have unbracketed : hostKind host =
      if endsInNumber host then .ipv4 (ipv4Parser host) else .domain host := by
    unfold hostKind
    split
    · next inner =>
      exact absurd (valid.plain '[' (by simp)).2.2.2.2 (by simp)
    · rfl
  rw [unbracketed, endsInNumber_eq valid]
  cases number : isNumberLabel ((labels host).getLastD [])
  · exact iff_of_true rfl rfl
  · exact iff_of_false nofun nofun

theorem hostOf_infoUrl {raw : Text} {url : AnnouncedUrl} {parts : UrlParts}
    (read : announcedParts raw = .ok parts) (kept : url.text = parts.rebuild) :
    hostOf url.infoUrl = parts.host := by
  obtain ⟨authority, host, reads⟩ := announcedParts_ok.mp read
  have stripped : scheme.isPrefixOf? url.text =
      some (Reads.kept parts ++ trimEndMatches '/' parts.path) := by
    rw [kept, Reads.rebuild_eq, isPrefixOf?_eq_some_iff_append_eq]
  have served := @takeWhile_append_of_stop _ (· ≠ '/') (Reads.kept parts)
    (trimEndMatches '/' parts.path)
    (fun c mem => by
      obtain rfl | plain := reads.kept_plain c mem
      · decide
      · simpa using plain.2.2.1)
    (reads.rooted_again.imp id fun head => ⟨'/', head, by decide⟩)
  have ends : ∀ c ∈ Reads.kept parts, (!(['/', '\\', '?', '#'].contains c)) = true := by
    intro c mem
    obtain rfl | plain := reads.kept_plain c mem
    · decide
    · have barred := plain.not_barred
      have slash := plain.2.2.1
      have back := plain.2.2.2.2
      simp only [mem_cons, not_mem_nil, or_false, not_or] at barred back
      simp [slash, barred, back]
  have authority := takeWhile_append_of_stop ends (.inr ⟨'/', rfl, rfl⟩ :
    infoPath = [] ∨ ∃ c, infoPath.head? = some c ∧ (!(['/', '\\', '?', '#'].contains c)) = false)
  have suffixed : portSuffix parts.port = [] ∨
      ∃ c, (portSuffix parts.port).head? = some c ∧ decide (c ≠ ':') = false := by
    unfold portSuffix
    split
    · exact .inl rfl
    · split
      · exact .inl rfl
      · exact .inr ⟨':', rfl, rfl⟩
  have named := @takeWhile_append_of_stop _ (· ≠ ':') parts.host (portSuffix parts.port)
    (fun c mem => by simpa using (reads.valid.plain c mem).2.2.2.1) suffixed
  have again : infoScheme.isPrefixOf? (infoScheme ++ (Reads.kept parts ++ infoPath)) =
      some (Reads.kept parts ++ infoPath) := by
    rw [isPrefixOf?_eq_some_iff_append_eq]
  have unbracketed : (Reads.kept parts).head? ≠ some '[' := by
    intro head
    obtain same | plain := reads.kept_plain '[' (mem_of_mem_head? head)
    · cases same
    · exact plain.2.2.2.2 (by simp)
  rw [AnnouncedUrl.infoUrl, stripped, Option.getD_some, served.1, hostOf, append_assoc,
    again, Option.getD_some, authority.1, if_neg unbracketed]
  exact named.1

/-- A URL that passed names a public host, as every reader takes it, if and only if the last label
of the name it was announced with is no number. -/
theorem announced_host {raw : Text} {url : AnnouncedUrl}
    (passed : AnnouncedUrl.tryFrom raw = .ok url) :
    (∃ s : Spelling, s.text = raw) ∧ ∀ s : Spelling, s.text = raw →
      (IsPublicName (hostOf url.infoUrl) ↔
        isNumberLabel ((labels (toAsciiLowercase s.name)).getLastD []) = false) := by
  obtain ⟨parts, read, kept⟩ := normalizeAnnouncedUrl_ok.mp (tryFrom_ok.mp passed)
  obtain ⟨authority, host, reads⟩ := announcedParts_ok.mp read
  refine ⟨exists_spelling read, ?_⟩
  rintro s rfl
  have valid := reads.valid
  rw [hostOf_infoUrl read kept.symm]
  rw [(s.parts read).1] at valid ⊢
  constructor
  · intro named
    exact named.unnumbered
  · intro unnumbered
    exact ⟨(hostKind_domain valid).mpr unnumbered, unnumbered, valid.two, valid.each, valid.outside⟩

theorem announced_host_play : ∃ url : AnnouncedUrl,
    AnnouncedUrl.tryFrom plainSpelling.text = .ok url ∧ IsPublicName (hostOf url.infoUrl) := by
  have plain : normalizeAnnouncedUrl plainSpelling.text = .ok "wss://h.e/ws".toList := by
    decide +kernel
  have passed : AnnouncedUrl.tryFrom plainSpelling.text = .ok ⟨_, _, plain⟩ :=
    tryFrom_ok.mpr plain
  exact ⟨_, passed, ((announced_host passed).2 plainSpelling rfl).mpr (by decide +kernel)⟩

/-- A quad shortened to two numbers, and a hexadecimal one. -/
theorem announced_host_fails : ∃ url url' : AnnouncedUrl,
    AnnouncedUrl.tryFrom "wss://127.1/ws".toList = .ok url ∧
    hostKind (hostOf url.infoUrl) = .ipv4 (some 0x7F000001) ∧
    AnnouncedUrl.tryFrom "wss://0x7f.0.0.0x1/ws".toList = .ok url' ∧
    hostKind (hostOf url'.infoUrl) = .ipv4 (some 0x7F000001) := by
  have short : normalizeAnnouncedUrl "wss://127.1/ws".toList = .ok "wss://127.1/ws".toList := by
    decide +kernel
  have hex : normalizeAnnouncedUrl "wss://0x7f.0.0.0x1/ws".toList =
      .ok "wss://0x7f.0.0.0x1/ws".toList := by
    decide +kernel
  exact ⟨⟨_, _, short⟩, ⟨_, _, hex⟩, tryFrom_ok.mpr short, by rfl, tryFrom_ok.mpr hex, by rfl⟩

end Phase.Directory
