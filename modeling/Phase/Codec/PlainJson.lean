import Phase.Codec.Types

/-! JSON of strings, arrays and objects without whitespace: one text, one reading. -/
namespace Phase.Codec.PlainJson
open List

def escape : Char → List Char
  | '"' => ['\\', '"']
  | '\\' => ['\\', '\\']
  | c => [c]

def quoted (text : List Char) : List Char := '"' :: (text.flatMap escape ++ ['"'])

def joined (items : List (List Char)) : List Char := [','].intercalate items

def member (entry : List Char × List Char) : List Char := quoted entry.1 ++ ':' :: entry.2

inductive IsJson : List Char → Prop
  | string (text : List Char) : IsJson (quoted text)
  | array (items : List (List Char)) (each : ∀ item ∈ items, IsJson item) :
      IsJson ('[' :: (joined items ++ [']']))
  | object (entries : List (List Char × List Char)) (each : ∀ entry ∈ entries, IsJson entry.2) :
      IsJson ('\x7b' :: (joined (entries.map member) ++ ['\x7d']))

/-- Where `a` starts, nothing else of the kind `Q` does. -/
def Reads (Q : List Char → Prop) (a : List Char) : Prop :=
  ∀ b r s, Q b → a ++ r = b ++ s → a = b ∧ r = s

theorem escape_cases (c : Char) :
    (c = '"' ∧ escape c = ['\\', '"']) ∨ (c = '\\' ∧ escape c = ['\\', '\\']) ∨
      (c ≠ '"' ∧ c ≠ '\\' ∧ escape c = [c]) := by
  by_cases quote : c = '"'
  · subst quote
    exact .inl ⟨rfl, rfl⟩
  · by_cases slash : c = '\\'
    · subst slash
      exact .inr (.inl ⟨rfl, rfl⟩)
    · refine .inr (.inr ⟨quote, slash, ?_⟩)
      unfold escape
      split
      · exact absurd rfl quote
      · exact absurd rfl slash
      · rfl

variable {text : List Char}

theorem quoted_reads {other r s : List Char}
    (same : text.flatMap escape ++ '"' :: r = other.flatMap escape ++ '"' :: s) :
    text = other ∧ r = s := by
  induction text generalizing other with
  | nil =>
    cases other with
    | nil => simpa using same
    | cons d other =>
      rcases escape_cases d with ⟨-, e⟩ | ⟨-, e⟩ | ⟨notQuote, -, e⟩
      · simp [e] at same
      · simp [e] at same
      · simp [e, notQuote.symm] at same
  | cons c text ih =>
    cases other with
    | nil =>
      rcases escape_cases c with ⟨-, e⟩ | ⟨-, e⟩ | ⟨notQuote, -, e⟩
      · simp [e] at same
      · simp [e] at same
      · simp [e, notQuote] at same
    | cons d other =>
      rcases escape_cases c with ⟨rfl, e⟩ | ⟨rfl, e⟩ | ⟨hc, hc', e⟩ <;>
        rcases escape_cases d with ⟨rfl, f⟩ | ⟨rfl, f⟩ | ⟨hd, hd', f⟩ <;>
        simp [e, f] at same
      · obtain ⟨rfl, rfl⟩ := ih same
        exact ⟨rfl, rfl⟩
      · exact absurd same.1.symm hd'
      · obtain ⟨rfl, rfl⟩ := ih same
        exact ⟨rfl, rfl⟩
      · exact absurd same.1.symm hd'
      · exact absurd same.1 hc'
      · exact absurd same.1 hc'
      · obtain ⟨rfl, rest⟩ := same
        obtain ⟨rfl, rfl⟩ := ih rest
        exact ⟨rfl, rfl⟩

theorem joined_cons (item : List Char) (items : List (List Char)) :
    joined (item :: items) = item ++ items.flatMap fun item => ',' :: item := by
  induction items generalizing item with
  | nil => simp [joined]
  | cons next items ih =>
    have step : joined (item :: next :: items) = item ++ ',' :: joined (next :: items) := by
      simp [joined, intercalate]
    rw [step, ih, flatMap_cons, cons_append]

section
variable {Q : List Char → Prop} {close : Char}

variable {items others : List (List Char)}

theorem tail_reads (notComma : close ≠ ',') {r s : List Char} (reads : ∀ item ∈ items, Reads Q item)
    (kinds : ∀ item ∈ others, Q item)
    (same : (items.flatMap fun item => ',' :: item) ++ close :: r =
      (others.flatMap fun item => ',' :: item) ++ close :: s) : items = others ∧ r = s := by
  induction items generalizing others with
  | nil =>
    cases others with
    | nil => simpa using same
    | cons other others => simp [notComma] at same
  | cons item items ih =>
    cases others with
    | nil => simp [notComma.symm] at same
    | cons other others =>
      simp only [flatMap_cons, cons_append, append_assoc, cons.injEq, true_and] at same
      obtain ⟨rfl, rest⟩ := reads item mem_cons_self other _ _ (kinds other mem_cons_self) same
      obtain ⟨rfl, rfl⟩ := ih (fun x mem => reads x (mem_cons_of_mem _ mem))
        (fun x mem => kinds x (mem_cons_of_mem _ mem)) rest
      exact ⟨rfl, rfl⟩

/-- A sequence up to its closing bracket has one reading, when no item starts with it. -/
theorem joined_reads (notComma : close ≠ ',') {r s : List Char}
    (reads : ∀ item ∈ items, Reads Q item) (own : ∀ item ∈ items, Q item)
    (kinds : ∀ item ∈ others, Q item) (open_ : ∀ item, Q item → ∀ rest, item ++ rest ≠ close :: r)
    (open' : ∀ item, Q item → ∀ rest, item ++ rest ≠ close :: s)
    (same : joined items ++ close :: r = joined others ++ close :: s) : items = others ∧ r = s := by
  cases items with
  | nil =>
    cases others with
    | nil => simpa [joined] using same
    | cons other others =>
      rw [joined_cons, append_assoc] at same
      exact absurd same.symm (open_ other (kinds other mem_cons_self) _)
  | cons item items =>
    cases others with
    | nil =>
      rw [joined_cons, append_assoc] at same
      exact absurd same (open' item (own item mem_cons_self) _)
    | cons other others =>
      rw [joined_cons, joined_cons, append_assoc, append_assoc] at same
      obtain ⟨rfl, rest⟩ := reads item mem_cons_self other _ _ (kinds other mem_cons_self) same
      obtain ⟨rfl, rfl⟩ := tail_reads notComma (fun x mem => reads x (mem_cons_of_mem _ mem))
        (fun x mem => kinds x (mem_cons_of_mem _ mem)) rest
      exact ⟨rfl, rfl⟩

end

theorem IsJson.head (h : IsJson text) :
    ∃ c rest, text = c :: rest ∧ (c = '"' ∨ c = '[' ∨ c = '\x7b') := by
  cases h with
  | string text => exact ⟨_, _, rfl, .inl rfl⟩
  | array items each => exact ⟨_, _, rfl, .inr (.inl rfl)⟩
  | object entries each => exact ⟨_, _, rfl, .inr (.inr rfl)⟩

theorem IsJson.not_closed (h : IsJson text) {close : Char} (bracket : close = ']' ∨ close = '\x7d')
    (rest r : List Char) : text ++ rest ≠ close :: r := by
  obtain ⟨c, tail, rfl, opens⟩ := h.head
  intro same
  have heads : c = close := (List.cons.inj same).1
  rcases bracket with rfl | rfl <;> rcases opens with rfl | rfl | rfl <;> cases heads

def IsMember (text : List Char) : Prop := ∃ key value, IsJson value ∧ text = member (key, value)

theorem IsMember.not_closed (h : IsMember text) (rest r : List Char) :
    text ++ rest ≠ '\x7d' :: r := by
  obtain ⟨key, value, -, rfl⟩ := h
  intro same
  cases (List.cons.inj same).1

theorem member_reads {entry : List Char × List Char} (reads : Reads IsJson entry.2) :
    Reads IsMember (member entry) := by
  rintro b r s ⟨key, value, isValue, rfl⟩ same
  simp only [member, quoted, List.cons_append, List.append_assoc, List.cons.injEq, true_and] at same
  obtain ⟨sameKey, rest⟩ := quoted_reads same
  obtain ⟨sameValue, rfl⟩ := reads value r s isValue (List.cons.inj rest).2
  refine ⟨?_, rfl⟩
  rw [← sameKey, ← sameValue]

theorem member_inj {entries others : List (List Char × List Char)}
    (same : entries.map member = others.map member)
    (reads : ∀ entry ∈ entries, Reads IsJson entry.2) (kinds : ∀ entry ∈ others, IsJson entry.2) :
    entries = others := by
  induction entries generalizing others with
  | nil => simpa using same
  | cons entry entries ih =>
    cases others with
    | nil => simp at same
    | cons other others =>
      obtain ⟨here, rest⟩ := List.cons.inj same
      simp only [member, quoted, List.cons_append, List.append_assoc, List.cons.injEq,
        true_and] at here
      obtain ⟨sameKey, values⟩ := quoted_reads here
      have sameValue : entry.2 = other.2 := (List.cons.inj values).2
      rw [Prod.ext sameKey sameValue, ih rest (fun e mem => reads e (List.mem_cons_of_mem _ mem))
          (fun e mem => kinds e (List.mem_cons_of_mem _ mem))]

theorem IsJson.reads (h : IsJson text) : Reads IsJson text := by
  induction h with
  | string text =>
    intro b r s isB same
    cases isB with
    | string other =>
      simp only [quoted, List.cons_append, List.append_assoc, List.cons.injEq, true_and] at same
      obtain ⟨rfl, rfl⟩ := quoted_reads same
      exact ⟨rfl, rfl⟩
    | array items each => cases (List.cons.inj same).1
    | object entries each => cases (List.cons.inj same).1
  | array items each ih =>
    intro b r s isB same
    cases isB with
    | string other => cases (List.cons.inj same).1
    | array others kinds =>
      simp only [List.cons_append, List.append_assoc, List.cons.injEq, true_and] at same
      obtain ⟨rfl, rfl⟩ := joined_reads (by decide) ih each kinds
        (fun item kind rest => kind.not_closed (.inl rfl) rest _)
        (fun item kind rest => kind.not_closed (.inl rfl) rest _) same
      exact ⟨rfl, rfl⟩
    | object entries each => cases (List.cons.inj same).1
  | object entries each ih =>
    intro b r s isB same
    cases isB with
    | string other => cases (List.cons.inj same).1
    | array others kinds => cases (List.cons.inj same).1
    | object others kinds =>
      simp only [List.cons_append, List.append_assoc, List.cons.injEq, true_and] at same
      have members {es : List (List Char × List Char)} (values : ∀ e ∈ es, IsJson e.2) :
          ∀ item ∈ es.map member, IsMember item := by
        intro item mem
        obtain ⟨e, memE, rfl⟩ := List.mem_map.mp mem
        exact ⟨e.1, e.2, values e memE, rfl⟩
      have reads : ∀ item ∈ entries.map member, Reads IsMember item := by
        intro item mem
        obtain ⟨e, memE, rfl⟩ := List.mem_map.mp mem
        exact member_reads (ih e memE)
      obtain ⟨sameMembers, rfl⟩ := joined_reads (by decide) reads (members each)
        (members kinds) (fun item kind rest => kind.not_closed rest _)
        (fun item kind rest => kind.not_closed rest _) same
      rw [sameMembers]
      exact ⟨rfl, rfl⟩

abbrev Value := { text : String // IsJson text.toList }

def quote (text : String) : String := String.ofList (quoted text.toList)

/-- Reading is the inverse of writing. -/
noncomputable def readBack {α : Type} (write : α → String) (text : String) : Option α :=
  open Classical in if h : ∃ a, write a = text then some h.choose else none

theorem readBack_write {α : Type} {write : α → String} (injective : Function.Injective write)
    (a : α) : readBack write (write a) = some a := by
  have some_ : ∃ b, write b = write a := ⟨a, rfl⟩
  rw [readBack, dif_pos some_, injective some_.choose_spec]

def writeValues (items : List Value) : String := writeArray (items.map (·.1))

def writeMembers (entries : List (String × Value)) : String :=
  "\x7b" ++ ",".intercalate (entries.map fun entry => quote entry.1 ++ ":" ++ entry.2.1) ++ "\x7d"

/-- Digests are the texts themselves. -/
noncomputable def crates : Crates where
  IsValue text := IsJson text.toList
  fromStr text := open Classical in if h : IsJson text.toList then some ⟨text, h⟩ else none
  object := readBack writeMembers
  array := readBack writeValues
  string := readBack quote
  quote := quote
  Digest := String
  decEq := inferInstance
  sha256 text := text
  hex digest := digest

theorem quote_injective : Function.Injective quote := by
  intro a b same
  have lists : quoted a.toList = quoted b.toList := String.ofList_injective same
  simp only [quoted, List.cons.injEq, true_and] at lists
  exact String.toList_injective (quoted_reads lists).1

theorem toList_writeValues (items : List Value) :
    (writeValues items).toList = '[' :: (joined (items.map fun item => item.1.toList) ++ [']']) := by
  simp [writeValues, writeArray, joined, String.toList_intercalate]

theorem toList_writeMembers (entries : List (String × Value)) :
    (writeMembers entries).toList = '\x7b' ::
      (joined ((entries.map fun entry => (entry.1.toList, entry.2.1.toList)).map member) ++
        ['\x7d']) := by
  simp [writeMembers, joined, String.toList_intercalate, Function.comp_def, member, quote]

theorem isJson_writeValues (items : List Value) : IsJson (writeValues items).toList := by
  rw [toList_writeValues]
  refine .array _ fun item mem => ?_
  obtain ⟨value, -, rfl⟩ := List.mem_map.mp mem
  exact value.2

theorem isJson_writeMembers (entries : List (String × Value)) :
    IsJson (writeMembers entries).toList := by
  rw [toList_writeMembers]
  refine .object _ fun entry mem => ?_
  obtain ⟨e, -, rfl⟩ := List.mem_map.mp mem
  exact e.2.2

theorem writeValues_injective : Function.Injective writeValues := by
  intro items others same
  have lists := congrArg String.toList same
  rw [toList_writeValues, toList_writeValues] at lists
  have values (vs : List Value) : ∀ item ∈ vs.map fun v => v.1.toList, IsJson item := by
    intro item mem
    obtain ⟨v, -, rfl⟩ := List.mem_map.mp mem
    exact v.2
  have texts := (joined_reads (by decide) (fun item mem => (values items item mem).reads)
    (values items) (values others) (fun item kind rest => kind.not_closed (.inl rfl) rest _)
    (fun item kind rest => kind.not_closed (.inl rfl) rest _) (List.cons.inj lists).2).1
  refine List.map_injective_iff.mpr ?_ texts
  exact fun a b h => Subtype.ext (String.toList_injective h)

theorem writeMembers_injective : Function.Injective writeMembers := by
  intro entries others same
  have lists := congrArg String.toList same
  rw [toList_writeMembers, toList_writeMembers] at lists
  have values (es : List (String × Value)) :
      ∀ e ∈ es.map fun e => (e.1.toList, e.2.1.toList), IsJson e.2 := by
    intro e mem
    obtain ⟨entry, -, rfl⟩ := List.mem_map.mp mem
    exact entry.2.2
  have members (es : List (String × Value)) : ∀ item ∈
      (es.map fun e => (e.1.toList, e.2.1.toList)).map member, IsMember item := by
    intro item mem
    obtain ⟨e, memE, rfl⟩ := List.mem_map.mp mem
    exact ⟨e.1, e.2, values es e memE, rfl⟩
  have reads : ∀ item ∈ (entries.map fun e => (e.1.toList, e.2.1.toList)).map member,
      Reads IsMember item := by
    intro item mem
    obtain ⟨e, memE, rfl⟩ := List.mem_map.mp mem
    exact member_reads (values entries e memE).reads
  have texts := (joined_reads (by decide) reads (members entries) (members others)
    (fun item kind rest => kind.not_closed rest _) (fun item kind rest => kind.not_closed rest _)
    (List.cons.inj lists).2).1
  have pairs := member_inj texts (fun e mem => (values entries e mem).reads) (values others)
  refine List.map_injective_iff.mpr ?_ pairs
  intro a b h
  obtain ⟨keys, values⟩ := Prod.ext_iff.mp h
  exact Prod.ext (String.toList_injective keys) (Subtype.ext (String.toList_injective values))

theorem writeObject_eq (entries : List (String × RawValue crates)) :
    writeObject crates (entries.map fun (key, value) => (key, value.1)) = writeMembers entries := by
  simp only [writeObject, writeMembers, List.map_map]
  rfl

theorem lawful : crates.Lawful where
  reads_value value := dif_pos value.2
  quote_isValue text := by
    change IsJson (quote text).toList
    rw [quote, String.toList_ofList]
    exact .string text.toList
  reads_string text := readBack_write quote_injective text
  array_isValue items := isJson_writeValues items
  reads_array items := readBack_write writeValues_injective items
  object_isValue entries := by
    rw [writeObject_eq]
    exact isJson_writeMembers entries
  reads_object entries := by
    rw [writeObject_eq]
    exact readBack_write writeMembers_injective entries

theorem sha256_injective : Function.Injective crates.sha256 := fun _ _ same => same

end Phase.Codec.PlainJson
