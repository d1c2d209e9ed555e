import Phase.Directory.Canonical

/-! The spellings of one server, and when the directory keeps one form of two of them. -/
namespace Phase.Directory
open Fallible Trimming List AnnouncedUrl

/-- How an announced URL is written. -/
structure Spelling where
  before : Text
  name : Text
  dot : Text
  port : Text
  path : Text
  slashes : Text
  after : Text
  before_blank : ∀ c ∈ before, isWhitespace c
  after_blank : ∀ c ∈ after, isWhitespace c
  name_plain : ∀ c ∈ name, c ≠ '/' ∧ c ≠ ':' ∧ isWhitespace c = false
  name_undotted : name.getLast? ≠ some '.'
  dot_root : dot = [] ∨ dot = ['.']
  port_plain : port = [] ∨ ∃ number, port = ':' :: number ∧
    ∀ c ∈ number, c ≠ '/' ∧ c ≠ ':' ∧ isWhitespace c = false
  path_rooted : path = [] ∨ path.head? = some '/'
  slashes_only : ∀ c ∈ slashes, c = '/'

namespace Spelling

def authority (s : Spelling) : Text := s.name ++ s.dot ++ s.port

def text (s : Spelling) : Text :=
  s.before ++ (scheme ++ (s.authority ++ (s.path ++ s.slashes))) ++ s.after

def closed (s : Spelling) : Text := (s.path ++ s.slashes).rdropWhile isWhitespace

theorem dot_dark (s : Spelling) : ∀ c ∈ s.dot, c = '.' := by
  intro c mem
  obtain empty | dot := s.dot_root
  · rw [empty] at mem
    cases mem
  · rw [dot] at mem
    exact mem_singleton.mp mem

theorem port_dark (s : Spelling) : ∀ c ∈ s.port, c ≠ '/' ∧ isWhitespace c = false := by
  intro c mem
  obtain empty | ⟨number, port, plain⟩ := s.port_plain
  · rw [empty] at mem
    cases mem
  · rw [port] at mem
    obtain rfl | mem := mem_cons.mp mem
    · exact ⟨by decide, colon_dark⟩
    · exact ⟨(plain c mem).1, (plain c mem).2.2⟩

theorem authority_dark (s : Spelling) : ∀ c ∈ s.authority, c ≠ '/' ∧ isWhitespace c = false := by
  intro c mem
  obtain mem | mem := mem_append.mp mem
  · obtain mem | mem := mem_append.mp mem
    · exact ⟨(s.name_plain c mem).1, (s.name_plain c mem).2.2⟩
    · rw [s.dot_dark c mem]
      exact ⟨by decide, by simp [isWhitespace]⟩
  · exact s.port_dark c mem

theorem trim_text (s : Spelling) : trim s.text = scheme ++ (s.authority ++ s.closed) :=
  trim_url s.before_blank s.after_blank fun c mem => (s.authority_dark c mem).2

theorem closed_rooted (s : Spelling) : s.closed = [] ∨ s.closed.head? = some '/' := by
  have rooted : s.path ++ s.slashes = [] ∨ (s.path ++ s.slashes).head? = some '/' := by
    obtain empty | head := s.path_rooted
    · rw [empty]
      cases same : s.slashes with
      | nil => exact .inl rfl
      | cons c slashes =>
        rw [s.slashes_only c (by simp [same])]
        exact .inr rfl
    · rw [head?_append, head]
      exact .inr rfl
  obtain ⟨cut, whole, -⟩ := @rdropWhile_split _ isWhitespace (s.path ++ s.slashes)
  change s.path ++ s.slashes = s.closed ++ cut at whole
  cases kept : s.closed with
  | nil => exact .inl rfl
  | cons c rest =>
    rw [kept] at whole
    rw [whole] at rooted
    exact .inr (by simpa using rooted)

/-- The port that a port text stands for. -/
def portOf (port : Text) : Option Nat := parseU16 port.tail

theorem split (s : Spelling) {host : Text} {port : Option Nat}
    (split : splitPort s.authority = .ok (host, port)) :
    host = s.name ++ s.dot ∧ port = portOf s.port := by
  have uncoloned : ':' ∉ s.name ++ s.dot := by
    intro mem
    obtain mem | mem := mem_append.mp mem
    · exact (s.name_plain _ mem).2.1 rfl
    · exact absurd (s.dot_dark _ mem) (by decide)
  rw [authority] at split
  obtain empty | ⟨number, written, plain⟩ := s.port_plain
  · rw [empty, append_nil, splitPort_none uncoloned] at split
    cases split
    rw [empty]
    exact ⟨rfl, rfl⟩
  · have absent : ':' ∉ number := fun mem => (plain _ mem).2.1 rfl
    rw [written, splitPort, rsplitOnce_append absent] at split
    simp only at split
    split at split
    · next read =>
      cases split
      rw [written]
      exact ⟨rfl, read.symm⟩
    · cases split

/-- What is read of a spelling: nothing of it but its name, port and path. -/
theorem parts (s : Spelling) {parts : UrlParts} (read : announcedParts s.text = .ok parts) :
    parts.host = toAsciiLowercase s.name ∧ parts.port = portOf s.port ∧ parts.path = s.closed := by
  obtain ⟨authority, host, reads⟩ := announcedParts_ok.mp read
  have whole := reads.text
  rw [s.trim_text] at whole
  have same := append_cancel_left whole
  have here := takeWhile_append_of_stop (p := (· ≠ '/'))
    (fun c mem => by simpa using (s.authority_dark c mem).1)
    (s.closed_rooted.imp id fun head => ⟨'/', head, by decide⟩)
  have there := takeWhile_append_of_stop (p := (· ≠ '/'))
    (fun c mem => by simpa using reads.inside c mem)
    (reads.rooted.imp id fun head => ⟨'/', head, by decide⟩)
  rw [same] at here
  obtain ⟨rfl, path⟩ : authority = s.authority ∧ parts.path = s.closed :=
    ⟨there.1.symm.trans here.1, there.2.symm.trans here.2⟩
  obtain ⟨rfl, port⟩ := s.split reads.split
  have name : parts.host = toAsciiLowercase s.name := by
    rw [← reads.host]
    obtain empty | dot := s.dot_root
    · rw [empty, append_nil, canonicalHost_undotted s.name_undotted]
    · rw [dot, canonicalHost_dotted]
  exact ⟨name, port, path⟩

theorem kept (s : Spelling) {url : Text} (passed : normalizeAnnouncedUrl s.text = .ok url) :
    url = scheme ++ (toAsciiLowercase s.name ++ portSuffix (portOf s.port) ++
      trimEndMatches '/' s.closed) := by
  obtain ⟨parts, read, rfl⟩ := normalizeAnnouncedUrl_ok.mp passed
  obtain ⟨name, port, path⟩ := s.parts read
  rw [Reads.rebuild_eq, Reads.kept, name, port, path]

theorem closed_slashed (s : Spelling) (slashed : s.slashes ≠ []) :
    trimEndMatches '/' s.closed = trimEndMatches '/' s.path := by
  have whole : s.closed = s.path ++ s.slashes := by
    apply rdropWhile_eq_self.mpr
    intro c last
    have slash : c ∈ s.slashes := by
      rw [getLast?_append_of_ne_nil _ slashed] at last
      exact mem_of_getLast? last
    rw [s.slashes_only c slash]
    simp [isWhitespace]
  rw [whole]
  exact rdropWhile_append_of_all fun c mem => by simpa using s.slashes_only c mem

theorem closed_unslashed (s : Spelling) (unslashed : s.slashes = []) :
    s.closed = s.path.rdropWhile isWhitespace := by
  rw [closed, unslashed, append_nil]

end Spelling

/-- Every URL that passes is some spelling. -/
theorem exists_spelling {raw : Text} {parts : UrlParts} (read : announcedParts raw = .ok parts) :
    ∃ s : Spelling, s.text = raw := by
  obtain ⟨authority, host, reads⟩ := announcedParts_ok.mp read
  obtain ⟨before, front, before_blank⟩ := @dropWhile_split _ isWhitespace raw
  obtain ⟨after, back, after_blank⟩ :=
    @rdropWhile_split _ isWhitespace (raw.dropWhile isWhitespace)
  have whole : raw = before ++ trim raw ++ after := by
    rw [append_assoc, trim, ← back, ← front]
  have valid := reads.valid
  rw [← reads.host] at valid
  obtain ⟨name, dot, rfl, dot_root, name_undotted, -⟩ := exists_undotted valid.undotted
  have name_plain : ∀ c ∈ name, c ≠ '/' ∧ c ≠ ':' ∧ isWhitespace c = false := by
    intro c mem
    have plain := reads.host_plain c (mem_append_left _ mem)
    exact ⟨plain.2.2.1, plain.2.2.2.1, plain.not_whitespace⟩
  obtain ⟨port, port_plain, authorized⟩ : ∃ port : Text, (port = [] ∨ ∃ number,
      port = ':' :: number ∧ ∀ c ∈ number, c ≠ '/' ∧ c ≠ ':' ∧ isWhitespace c = false) ∧
      authority = name ++ dot ++ port := by
    obtain ⟨same, -, -⟩ | ⟨number, port, same, -, parsed, -, -⟩ := splitPort_ok reads.split
    · exact ⟨[], .inl rfl, by rw [same, append_nil]⟩
    · refine ⟨':' :: number, .inr ⟨number, rfl, ?_⟩, same⟩
      intro c mem
      have plain := port_plain parsed c mem
      exact ⟨plain.2.2.1, plain.2.2.2.1, plain.not_whitespace⟩
  refine ⟨⟨before, name, dot, port, parts.path, [], after, before_blank, after_blank, name_plain,
    name_undotted, dot_root, port_plain, reads.rooted, by simp⟩, ?_⟩
  rw [Spelling.text, Spelling.authority, ← authorized, append_nil, ← reads.text, ← whole]

/-- Two spellings that differ in white space around them, the case of the host, the root dot, the
default port or trailing slashes, and in nothing else. -/
structure SameServer (s s' : Spelling) : Prop where
  name : toAsciiLowercase s.name = toAsciiLowercase s'.name
  port : s.port = s'.port ∨ (s.port ∈ [[], ":443".toList] ∧ s'.port ∈ [[], ":443".toList])
  path : s.path = s'.path

def EndsBlank (path : Text) : Prop := ∃ c ∈ path.getLast?, isWhitespace c

theorem default_port {port : Text} (default : port ∈ [[], ":443".toList]) :
    portSuffix (Spelling.portOf port) = [] := by
  simp only [mem_cons, not_mem_nil, or_false] at default
  obtain rfl | rfl := default
  · rfl
  · decide

theorem SameServer.suffix {s s' : Spelling} (same : SameServer s s') :
    portSuffix (Spelling.portOf s.port) = portSuffix (Spelling.portOf s'.port) := by
  obtain port | ⟨default, default'⟩ := same.port
  · rw [port]
  · rw [default_port default, default_port default']

theorem trimEndMatches_dark {path : Text} (dark : ¬EndsBlank path) :
    path.rdropWhile isWhitespace = path := by
  apply rdropWhile_eq_self.mpr
  intro c last
  by_contra blank
  exact dark ⟨c, last, by simpa using blank⟩

theorem trimEndMatches_blank {path : Text} (blank : EndsBlank path) :
    trimEndMatches '/' (path.rdropWhile isWhitespace) ≠ trimEndMatches '/' path := by
  obtain ⟨c, last, isBlank⟩ := blank
  have whole : trimEndMatches '/' path = path := by
    apply rdropWhile_eq_self.mpr
    intro d last'
    obtain rfl : c = d := Option.mem_unique last last'
    by_contra slash
    obtain rfl : c = '/' := by simpa using slash
    simp [isWhitespace] at isBlank
  rw [whole]
  intro same
  -- What keeps its length under both cuts ends in nothing blank.
  have prefix1 : trimEndMatches '/' (path.rdropWhile isWhitespace) <+: path.rdropWhile isWhitespace :=
    rdropWhile_prefix _ _
  have prefix2 : path.rdropWhile isWhitespace <+: path := rdropWhile_prefix _ _
  rw [same] at prefix1
  have kept : path.rdropWhile isWhitespace = path :=
    prefix2.eq_of_length (Nat.le_antisymm prefix2.length_le prefix1.length_le)
  rw [rdropWhile_eq_self.mp kept c last] at isBlank
  cases isBlank

/-- Two spellings are kept in one form unless what closes the path is blank, and trailing slashes
hide that in only one of them. -/
theorem SameServer.kept_iff {s s' : Spelling} (same : SameServer s s') {url url' : Text}
    (passed : normalizeAnnouncedUrl s.text = .ok url)
    (passed' : normalizeAnnouncedUrl s'.text = .ok url') :
    url = url' ↔ (EndsBlank s.path → (s.slashes = [] ↔ s'.slashes = [])) := by
  have paths : url = url' ↔ trimEndMatches '/' s.closed = trimEndMatches '/' s'.closed := by
    rw [s.kept passed, s'.kept passed', same.name, same.suffix]
    simp
  rw [paths]
  by_cases none : s.slashes = [] <;> by_cases none' : s'.slashes = []
  · rw [s.closed_unslashed none, s'.closed_unslashed none', same.path]
    simp [none, none']
  · rw [s.closed_unslashed none, s'.closed_slashed none', ← same.path]
    by_cases blank : EndsBlank s.path
    · simp [none, none', blank, trimEndMatches_blank blank]
    · simp [blank, trimEndMatches_dark blank]
  · rw [s.closed_slashed none, s'.closed_unslashed none', ← same.path]
    by_cases blank : EndsBlank s.path
    · simp [none, none', blank, (trimEndMatches_blank blank).symm]
    · simp [blank, trimEndMatches_dark blank]
  · rw [s.closed_slashed none, s'.closed_slashed none', same.path]
    simp [none, none']

theorem tryFrom_ok {raw : Text} {url : AnnouncedUrl} :
    tryFrom raw = .ok url ↔ normalizeAnnouncedUrl raw = .ok url.text := by
  unfold tryFrom
  split
  · next text passed =>
    constructor
    · intro same
      cases same
      exact passed
    · intro same
      cases passed.symm.trans same
      rfl
  · next message failed => simp [failed]

/-- What a string is kept as is short, and comes back as it is from its own text if and only if
nothing blank stands before the trailing slashes of the string; two spellings of one server are
kept in one form if and only if trailing slashes hide no blank end of the path in one of them
alone. -/
theorem announced_identity (raw : Text) (url : AnnouncedUrl) (passed : tryFrom raw = .ok url) :
    byteLen url.text ≤ maxServerUrlLen ∧
    (tryFrom url.text = .ok url ↔ ClosesClean raw) ∧
    ∀ (s s' : Spelling) (url' : AnnouncedUrl), raw = s.text → SameServer s s' →
      tryFrom s'.text = .ok url' →
      (url = url' ↔ (EndsBlank s.path → (s.slashes = [] ↔ s'.slashes = []))) := by
  have kept := tryFrom_ok.mp passed
  rw [tryFrom_ok]
  refine ⟨normalize_short kept, normalize_again kept, ?_⟩
  intro s s' url' isText same passed'
  rw [isText] at kept
  rw [← same.kept_iff kept (tryFrom_ok.mp passed')]
  cases url
  cases url'
  simp

def loudSpelling : Spelling where
  before := [' ']
  name := ['H', '.', 'E']
  dot := ['.']
  port := [':', '4', '4', '3']
  path := ['/', 'w', 's']
  slashes := ['/', '/']
  after := []
  before_blank := by simp [isWhitespace]
  after_blank := by simp
  name_plain := by simp [isWhitespace]
  name_undotted := by simp
  dot_root := .inr rfl
  port_plain := .inr ⟨_, rfl, by simp [isWhitespace]⟩
  path_rooted := .inr rfl
  slashes_only := by simp

def plainSpelling : Spelling where
  before := []
  name := ['h', '.', 'e']
  dot := []
  port := []
  path := ['/', 'w', 's']
  slashes := []
  after := []
  before_blank := by simp
  after_blank := by simp
  name_plain := by simp [isWhitespace]
  name_undotted := by simp
  dot_root := .inl rfl
  port_plain := .inl rfl
  path_rooted := .inr rfl
  slashes_only := by simp

theorem announced_identity_loud : ∃ url url' : AnnouncedUrl, tryFrom loudSpelling.text = .ok url ∧
    tryFrom plainSpelling.text = .ok url' ∧
    url = url' ∧ tryFrom url.text = .ok url := by
  have loud : normalizeAnnouncedUrl loudSpelling.text = .ok "wss://h.e/ws".toList := by
    decide +kernel
  have plain : normalizeAnnouncedUrl plainSpelling.text = .ok "wss://h.e/ws".toList := by
    decide +kernel
  have passed : tryFrom loudSpelling.text = .ok ⟨_, _, loud⟩ := tryFrom_ok.mpr loud
  have passed' : tryFrom plainSpelling.text = .ok ⟨_, _, plain⟩ :=
    tryFrom_ok.mpr plain
  have same : SameServer loudSpelling plainSpelling :=
    ⟨by decide, .inr ⟨by decide, by decide⟩, rfl⟩
  have last : (trimEndMatches '/' (trim loudSpelling.text)).getLast? = some 's' := by
    decide +kernel
  have clean : ClosesClean loudSpelling.text := by
    intro c isLast
    obtain rfl : 's' = c := by simpa [last] using isLast
    simp [isWhitespace]
  have dark : ¬EndsBlank loudSpelling.path := by
    simp [EndsBlank, loudSpelling, isWhitespace]
  obtain ⟨-, again, one⟩ := announced_identity _ _ passed
  exact ⟨_, _, passed, passed', (one _ _ _ rfl same passed').mpr fun blank => absurd blank dark,
    again.mpr clean⟩

/-- An ideographic space before the slash: what is kept is kept as something else when it is
announced again, and it is the text of another spelling of the same server. -/
theorem announced_identity_fails :
    normalizeAnnouncedUrl "wss://h.e/ws\u3000/".toList = .ok "wss://h.e/ws\u3000".toList ∧
    normalizeAnnouncedUrl "wss://h.e/ws\u3000".toList = .ok "wss://h.e/ws".toList ∧
    "wss://h.e/ws\u3000".toList ≠ "wss://h.e/ws".toList := by
  decide +kernel

end Phase.Directory
