import NovaRtl.Text.Files
import NovaRtl.Vcd.Commands

/-!
# Value change dumps

White space separates the words of a dump. `Dump` is a text whose `$date` sections are singled out,
and every text whose words are those of commands is such a text (`exists_dump`).
-/

namespace NovaRtl.Vcd

open Text

/-- The text between the keywords of a `$date` section. -/
structure Inside (inside : List Char) : Prop where
  ne : inside ≠ []
  apart : Apart inside
  ended : Ended inside
  words : endWord ∉ Text.words inside

/-- A `$date` section, and the text after it up to the next one. -/
structure DateSection where
  inside : List Char
  rest : List Char
  dated : Inside inside
  rest_apart : Apart rest
  rest_commands : Commands (words rest)

/-- The section with another text inside. -/
def DateSection.withInside (item : DateSection) {inside : List Char} (h : Inside inside) :
    DateSection :=
  { item with
    inside
    dated := h }

def DateSection.text (item : DateSection) : List Char :=
  dateWord ++ (item.inside ++ (endWord ++ item.rest))

/-- White space is before each `$date`, or it is the first word. -/
def Separated (before : List Char) : List DateSection → Prop
  | [] => True
  | item :: items => Ended before ∧ (items ≠ [] → item.rest ≠ []) ∧ Separated item.rest items

/-- A well-formed value change dump with its `$date` sections singled out. -/
structure Dump where
  head : List Char
  sections : List DateSection
  head_commands : Commands (words head)
  separated : Separated head sections

/-- The dump with another text inside its first section. -/
def Dump.withInside (dump : Dump) {item : DateSection} {items : List DateSection}
    (hsections : dump.sections = item :: items) {inside : List Char} (h : Inside inside) :
    Dump where
  head := dump.head
  sections := item.withInside h :: items
  head_commands := dump.head_commands
  separated := by
    have hseparated := dump.separated
    rw [hsections] at hseparated
    exact hseparated

/-- The text of some sections. -/
def sectionsText (items : List DateSection) : List Char := items.flatMap DateSection.text

def Dump.text (dump : Dump) : List Char := dump.head ++ sectionsText dump.sections

def Dump.bytes (dump : Dump) : ByteArray := encode (String.ofList dump.text)

theorem sectionsText_cons (item : DateSection) (items : List DateSection) :
    sectionsText (item :: items) = dateWord ++ (item.inside ++
      (endWord ++ (item.rest ++ sectionsText items))) := by
  simp [sectionsText, DateSection.text]

/-- The words of a text outside its `$date` sections. -/
def outside (text : List Char) : List Word := Scan.command.shown (words text)

/-- The dumps have the same text outside their `$date` sections. -/
def SameOutside (first second : Dump) : Prop :=
  first.head = second.head ∧
    first.sections.map DateSection.rest = second.sections.map DateSection.rest

theorem isWord_dateWord : IsWord dateWord := by decide

theorem isWord_endWord : IsWord endWord := by decide

def DateSection.words (item : DateSection) : List Word :=
  dateWord :: (Text.words item.inside ++ endWord :: Text.words item.rest)

theorem words_sectionsText {before : List Char} {items : List DateSection}
    (h : Separated before items) :
    words (before ++ sectionsText items) = words before ++ items.flatMap DateSection.words := by
  induction items generalizing before with
  | nil => simp [sectionsText]
  | cons item items ih =>
    obtain ⟨hbefore, hrest, hitems⟩ := h
    have happart : Apart (item.rest ++ sectionsText items) := by
      intro c hc
      cases hempty : item.rest with
      | nil =>
        obtain rfl : items = [] := by
          by_contra hne
          exact hrest hne hempty
        rw [hempty] at hc
        cases hc
      | cons d rest =>
        rw [hempty] at hc
        exact item.rest_apart c (hempty ▸ hc)
    have hinside : Apart (item.inside ++ (endWord ++ (item.rest ++ sectionsText items))) := by
      intro c hc
      rw [List.head?_append_of_ne_nil _ item.dated.ne] at hc
      exact item.dated.apart c hc
    rw [words_append_of_ended hbefore, sectionsText_cons, isWord_dateWord.words_append hinside,
      words_append_of_ended item.dated.ended, isWord_endWord.words_append happart, ih hitems]
    simp [DateSection.words]

/-- A section is scanned to its end, and shows the words after it. -/
theorem DateSection.scanned (item : DateSection) :
    Scan.command.AdmitsAll item.words ∧ Scan.command.run item.words = .command ∧
      Scan.command.shown item.words = Text.words item.rest := by
  obtain ⟨hadmits, hrun, hshown⟩ := scanned_date item.dated.words
  obtain ⟨hadmits', hrun', hshown'⟩ := item.rest_commands.scanned
  have hdate : Scan.command.next dateWord = .date := rfl
  have hend : Scan.date.next endWord = .command := rfl
  simp [words, Scan.AdmitsAll, Scan.Admits, Scan.shown, Scan.shows, hdate, hend, hadmits, hrun,
    hshown, hadmits', hrun', hshown']

/-- The words of a dump are admitted, and those outside the `$date` sections are shown. -/
theorem Dump.scanned (dump : Dump) :
    Scan.command.AdmitsAll (words dump.text) ∧ Scan.command.run (words dump.text) = .command ∧
      outside dump.text =
        words dump.head ++ dump.sections.flatMap fun item => words item.rest := by
  obtain ⟨hadmits, hrun, hshown⟩ := dump.head_commands.scanned
  rw [outside, Dump.text, words_sectionsText dump.separated, Scan.admitsAll_append, Scan.run_append,
    Scan.shown_append, hrun, hshown]
  induction dump.sections with
  | nil => exact ⟨⟨hadmits, trivial⟩, rfl, rfl⟩
  | cons item items ih =>
    obtain ⟨hadmits', hrun', hshown'⟩ := item.scanned
    obtain ⟨⟨-, hitems⟩, hrun, hshown⟩ := ih
    rw [List.flatMap_cons, Scan.admitsAll_append, Scan.run_append, Scan.shown_append, hrun',
      hshown', List.flatMap_cons, List.append_cancel_left hshown]
    exact ⟨⟨hadmits, hadmits', hitems⟩, hrun, rfl⟩

/-! ## Every text of commands -/

/-- A command of a dump. -/
inductive Item : List Word → Prop where
  | command {command : List Word} (h : Command command) : Item command
  | date {body : List Word} (h : endWord ∉ body) : Item (dateWord :: (body ++ [endWord]))

/-- White space separates the words of commands. -/
def WellFormed (text : List Char) : Prop :=
  ∃ items : List (List Word), (∀ item ∈ items, Item item) ∧ words text = items.flatten

variable {text : List Char} {items : List (List Word)}

/-- The words of the commands between `$date` commands. -/
theorem exists_dates (h : ∀ item ∈ items, Item item) :
    ∃ (head : List Word) (dates : List (List Word × List Word)), Commands head ∧
      (∀ date ∈ dates, endWord ∉ date.1 ∧ Commands date.2) ∧
      items.flatten = head ++ dates.flatMap fun date =>
        dateWord :: (date.1 ++ endWord :: date.2) := by
  induction items with
  | nil => exact ⟨[], [], ⟨[], nofun, rfl⟩, nofun, rfl⟩
  | cons item items ih =>
    obtain ⟨hitem, hitems⟩ := List.forall_mem_cons.mp h
    obtain ⟨head, dates, hhead, hdates, hflatten⟩ := ih hitems
    rw [List.flatten_cons, hflatten]
    cases hitem with
    | command hcommand =>
      obtain ⟨commands, hcommands, rfl⟩ := hhead
      exact ⟨_, dates, ⟨item :: commands, List.forall_mem_cons.mpr ⟨hcommand, hcommands⟩, rfl⟩,
        hdates, (List.append_assoc _ _ _).symm⟩
    | @date body hbody =>
      refine ⟨[], (body, head) :: dates, ⟨[], nofun, rfl⟩,
        List.forall_mem_cons.mpr ⟨⟨hbody, hhead⟩, hdates⟩, ?_⟩
      simp

/-- A keyword is not a part of a longer word. -/
theorem ne_nil_of_apart {word : Word} (hword : IsWord word) {inside rest : List Char}
    (h : Apart (inside ++ (word ++ rest))) : inside ≠ [] := by
  rintro rfl
  obtain ⟨c, word, rfl⟩ := List.exists_cons_of_ne_nil hword.1
  have hc := hword.2 c List.mem_cons_self
  exact absurd (h c rfl) (by simp [hc])

theorem apart_of_append {first rest : List Char} (h : Apart (first ++ rest)) : Apart first := by
  intro c hc
  cases first with
  | nil => cases hc
  | cons d first => exact h c hc

/-- The `$date` commands of a text are sections. -/
theorem exists_sections {head : List Word} {dates : List (List Word × List Word)}
    (hdates : ∀ date ∈ dates, endWord ∉ date.1 ∧ Commands date.2)
    (h : words text = head ++ dates.flatMap fun date => dateWord :: (date.1 ++ endWord :: date.2)) :
    ∃ (before : List Char) (sections : List DateSection), text = before ++ sectionsText sections ∧
      words before = head ∧ Separated before sections := by
  induction dates generalizing text head with
  | nil => exact ⟨text, [], (List.append_nil _).symm, by simpa using h, trivial⟩
  | cons date dates ih =>
    obtain ⟨⟨hbody, hcommands⟩, hdates⟩ := List.forall_mem_cons.mp hdates
    obtain ⟨before, after, rfl, -, hbefore, hafter, hwords, hwords'⟩ :=
      exists_of_words_eq (by simpa using h)
    obtain ⟨inside, after, rfl, hend, hinside, hrest, hinner, hwords''⟩ :=
      exists_of_words_eq hwords'
    obtain ⟨rest, sections, rfl, hwordsRest, hseparated⟩ := ih hdates hwords''
    have hne : inside ≠ [] := ne_nil_of_apart isWord_endWord hafter
    let item : DateSection :=
      { inside
        rest
        dated := ⟨hne, apart_of_append hafter, hinside, hinner ▸ hbody⟩
        rest_apart := apart_of_append hrest
        rest_commands := hwordsRest ▸ hcommands }
    refine ⟨before, item :: sections, ?_, hwords, hbefore, fun hsections => ?_, hseparated⟩
    · rw [sectionsText_cons]
    · obtain ⟨next, sections, rfl⟩ := List.exists_cons_of_ne_nil hsections
      rw [sectionsText_cons] at hrest
      exact ne_nil_of_apart isWord_dateWord hrest

/-- Every text of commands is a dump. -/
theorem exists_dump (h : WellFormed text) : ∃ dump : Dump, dump.text = text := by
  obtain ⟨items, hitems, hwords⟩ := h
  obtain ⟨head, dates, hhead, hdates, hflatten⟩ := exists_dates hitems
  obtain ⟨before, sections, rfl, rfl, hseparated⟩ := exists_sections hdates (hwords.trans hflatten)
  exact ⟨⟨before, sections, hhead, hseparated⟩, rfl⟩

/-- The text of a dump is one of commands. -/
theorem Dump.wellFormed (dump : Dump) : WellFormed dump.text := by
  obtain ⟨commands, hcommands, hhead⟩ := dump.head_commands
  have hsections : ∀ sections : List DateSection, ∃ items : List (List Word),
      (∀ item ∈ items, Item item) ∧ sections.flatMap DateSection.words = items.flatten := by
    intro sections
    induction sections with
    | nil => exact ⟨[], nofun, rfl⟩
    | cons item sections ih =>
      obtain ⟨items, hitems, hflatten⟩ := ih
      obtain ⟨commands, hcommands, hrest⟩ := item.rest_commands
      refine ⟨(dateWord :: (Text.words item.inside ++ [endWord])) :: (commands ++ items),
        List.forall_mem_cons.mpr ⟨.date item.dated.words, List.forall_mem_append.mpr
          ⟨fun command hcommand => .command (hcommands command hcommand), hitems⟩⟩, ?_⟩
      simp [DateSection.words, hflatten, hrest]
  obtain ⟨items, hitems, hflatten⟩ := hsections dump.sections
  refine ⟨commands ++ items, List.forall_mem_append.mpr
    ⟨fun command hcommand => .command (hcommands command hcommand), hitems⟩, ?_⟩
  rw [Dump.text, words_sectionsText dump.separated, hhead, hflatten, List.flatten_append]

end NovaRtl.Vcd
