import ToyComputer.Proofs.Linking

/-!
Mistakes: what can be wrong with the lines of a source, and which of it is reported. The first pass
reports the first line that it cannot take. If it takes all lines, the second pass reports the first
instruction that refers to a label that no line defines.
-/

namespace ToyComputer.Assembly

def Defines (texts : List String) (label : String) : Prop :=
  ∃ text ∈ texts, ∃ line, Line.ofString text = .ok line ∧ line.label = some label

/-- What the first pass cannot take: a line that is not made of tokens, tokens that are no line, or a
label that a line before has defined. -/
inductive Mistake (texts : List String) (index : Nat) : SourceError → Prop where
  | lexing (text : String) (error : SourceError) (there : texts[index]? = some text)
    (fails : Token.ofLine text = .error error) : Mistake texts index error
  | parsing (text : String) (tokens : List (Text.Spanned Token)) (error : SourceError)
    (there : texts[index]? = some text) (lexed : Token.ofLine text = .ok tokens)
    (fails : Line.ofTokens (tokens.map Text.Spanned.content) = .error error) :
    Mistake texts index error
  | redefining (text : String) (line : Line) (label : String) (there : texts[index]? = some text)
    (read : Line.ofString text = .ok line) (named : line.label = some label)
    (earlier : Defines (texts.take index) label) : Mistake texts index (.labelRedefined label)

/-- What the second pass cannot take: an instruction that refers to a label that no line defines. -/
def Dangling (texts : List String) (index : Nat) (label : String) : Prop :=
  ¬ Defines texts label ∧ ∃ text line operation, texts[index]? = some text ∧
    Line.ofString text = .ok line ∧ line.operation = some operation ∧
    operation.label? = some label

/-- The lines among the texts, without those that cannot be read. -/
def readable (texts : List String) : List Line :=
  texts.filterMap fun text => (Line.ofString text).toOption

section

variable (texts : List String) (lines : List Line)
  (read : texts.map Line.ofString = lines.map .ok)

include read

theorem readable_eq : readable texts = lines := by
  have same : readable texts = (texts.map Line.ofString).filterMap Except.toOption := by
    rw [List.filterMap_map]
    rfl
  rw [same, read, List.filterMap_map]
  exact List.filterMap_some

theorem getElem?_read (index : Nat) (text : String) (line : Line)
    (there : texts[index]? = some text) :
    Line.ofString text = .ok line ↔ lines[index]? = some line := by
  have same : (texts.map Line.ofString)[index]? = (lines.map .ok)[index]? := by rw [read]
  rw [List.getElem?_map, List.getElem?_map, there, Option.map_some] at same
  rcases found : lines[index]? with _ | other
  · rw [found] at same
    cases same
  · rw [found, Option.map_some, Option.some.injEq] at same
    rw [same, Except.ok.injEq, Option.some.injEq]

theorem defines_iff (label : String) : Defines texts label ↔ label ∈ labelsOf lines := by
  rw [← readable_eq texts lines read, readable, labelsOf, List.mem_filterMap]
  constructor
  · rintro ⟨text, member, line, parsed, named⟩
    exact ⟨line, List.mem_filterMap.mpr ⟨text, member, by rw [parsed]; rfl⟩, named⟩
  · rintro ⟨line, member, named⟩
    obtain ⟨text, listed, found⟩ := List.mem_filterMap.mp member
    cases parsed : Line.ofString text with
    | error error => rw [parsed] at found; cases found
    | ok other =>
        rw [parsed] at found
        cases found
        exact ⟨text, listed, line, parsed, named⟩

end

theorem Mistake.congr {first second : List String} {index : Nat} {error : SourceError}
    (mistake : Mistake first index error) (there : first[index]? = second[index]?)
    (before : first.take index = second.take index) : Mistake second index error := by
  cases mistake with
  | lexing text error present fails => exact .lexing text error (there ▸ present) fails
  | parsing text tokens error present lexed fails =>
      exact .parsing text tokens error (there ▸ present) lexed fails
  | redefining text line label present parsed named earlier =>
      exact .redefining text line label (there ▸ present) parsed named (before ▸ earlier)

theorem mistake_append (front back : List String) (index : Nat) (error : SourceError)
    (inside : index < front.length) :
    Mistake (front ++ back) index error ↔ Mistake front index error := by
  have there : (front ++ back)[index]? = front[index]? := List.getElem?_append_left inside
  have before : (front ++ back).take index = front.take index :=
    List.take_append_of_le_length (Nat.le_of_lt inside)
  exact ⟨fun mistake => mistake.congr there before,
    fun mistake => mistake.congr there.symm before.symm⟩

theorem Mistake.present {texts : List String} {index : Nat} {error : SourceError}
    (mistake : Mistake texts index error) : ∃ text, texts[index]? = some text := by
  cases mistake with
  | lexing text error there fails => exact ⟨text, there⟩
  | parsing text tokens error there lexed fails => exact ⟨text, there⟩
  | redefining text line label there read named earlier => exact ⟨text, there⟩

theorem Mistake.inside {texts : List String} {index : Nat} {error : SourceError}
    (mistake : Mistake texts index error) : index < texts.length := by
  obtain ⟨_, there⟩ := mistake.present
  exact (List.getElem?_eq_some_iff.mp there).1

theorem mistake_of_unread (texts : List String) (index : Nat) (text : String) (error : SourceError)
    (there : texts[index]? = some text) (unread : Line.ofString text = .error error) :
    Mistake texts index error := by
  unfold Line.ofString at unread
  split at unread
  · next failed =>
      cases unread
      exact .lexing text error there failed
  · next tokens lexed => exact .parsing text tokens error there lexed unread

theorem not_mistake (texts : List String) (index : Nat) (text : String) (line : Line)
    (error : SourceError) (there : texts[index]? = some text) (read : Line.ofString text = .ok line)
    (fresh : ∀ label, line.label = some label → ¬ Defines (texts.take index) label) :
    ¬ Mistake texts index error := by
  have same {other : String} (present : texts[index]? = some other) : other = text :=
    Option.some.inj (present.symm.trans there)
  intro mistake
  cases mistake with
  | lexing other error present fails =>
      rw [same present] at fails
      simp only [Line.ofString, fails] at read
      cases read
  | parsing other tokens error present lexed fails =>
      rw [same present] at lexed
      simp only [Line.ofString, lexed, fails] at read
      cases read
  | redefining other line' label present parsed named earlier =>
      rw [same present, read] at parsed
      cases parsed
      exact fresh label named earlier

theorem reads_of_no_mistake (texts : List String)
    (clean : ∀ index error, ¬ Mistake texts index error) :
    ∃ lines, texts.map Line.ofString = lines.map .ok ∧ (labelsOf lines).Nodup := by
  induction texts using List.reverseRecOn with
  | nil => exact ⟨[], rfl, List.nodup_nil⟩
  | append_singleton front text ih =>
      obtain ⟨lines, read, once⟩ := ih fun index error mistake =>
        clean index error ((mistake_append front [text] index error mistake.inside).mpr mistake)
      have there : (front ++ [text])[front.length]? = some text := by simp
      cases parsed : Line.ofString text with
      | error error =>
          exact absurd (mistake_of_unread _ _ text error there parsed) (clean front.length error)
      | ok line =>
          refine ⟨lines ++ [line], by simp [read, parsed], ?_⟩
          rw [labelsOf, List.filterMap_append, List.nodup_append]
          refine ⟨once, by cases named : line.label <;> simp [named], ?_⟩
          intro label member other last
          have named : line.label = some other := by simpa using last
          rintro rfl
          refine clean front.length _ (.redefining text line label there parsed named ?_)
          rw [List.take_left]
          exact (defines_iff front lines read label).mpr member

theorem fits_of_small (lines : List Line) (small : totalSize lines < 0x100000000) :
    Fits lines := by
  intro place member _
  have := address_le_totalSize lines place member
  omega

theorem ofLines_error (front back : List String) (error : AssemblyError)
    (failed : Layout.ofLines front = .error error) :
    Layout.ofLines (front ++ back) = .error error := by
  induction back using List.reverseRecOn with
  | nil => rw [List.append_nil, failed]
  | append_singleton back text ih => rw [← List.append_assoc, ofLines_append, ih]

theorem addLine_mistake (layout : Layout) (texts : List String) (lines : List Line) (text : String)
    (error : SourceError) (follows : layout.Follows lines)
    (read : texts.map Line.ofString = lines.map .ok) (small : totalSize lines < 0x100000000)
    (mistake : Mistake (texts ++ [text]) texts.length error) :
    layout.addLine text texts.length = .error error := by
  have last {other : String} (there : (texts ++ [text])[texts.length]? = some other) :
      text = other := by simpa using there
  unfold Layout.addLine
  cases mistake with
  | lexing other error there fails =>
      obtain rfl := last there
      simp only [Line.ofString, fails]
  | parsing other tokens error there lexed fails =>
      obtain rfl := last there
      simp only [Line.ofString, lexed, fails]
  | redefining other line label there parsed named earlier =>
      obtain rfl := last there
      rw [List.take_left, defines_iff texts lines read] at earlier
      have taken : label ∈ layout.labels.names := by
        rw [← List.mem_reverse, names_of_definitions layout.labels lines follows.labels]
        exact earlier
      have placed := placement_of_fits layout.next (by rw [follows.next]; exact small)
      simp only [parsed, named, Layout.addLabel, placed, LabelTable.define, dif_pos taken]
      rfl

theorem readable_append (front back : List String) :
    readable (front ++ back) = readable front ++ readable back := List.filterMap_append

theorem ofLines_reads (texts : List String) (lines : List Line)
    (read : texts.map Line.ofString = lines.map .ok) (once : (labelsOf lines).Nodup)
    (small : totalSize lines < 0x100000000) :
    ∃ layout, Layout.ofLines texts = .ok layout ∧ layout.Follows lines := by
  obtain ⟨layout, laid⟩ := ofLines_succeeds texts lines read (fits_of_small lines small) once
  obtain ⟨others, readAgain, follows⟩ := ofLines_follows texts layout laid
  obtain rfl := lines_unique texts others lines readAgain read
  exact ⟨layout, laid, follows⟩

/-- Of the mistakes of the first pass the first is reported, whatever comes behind it. -/
theorem ofLines_mistake (texts : List String) (index : Nat) (error : SourceError)
    (small : totalSize (readable texts) < 0x100000000) (mistake : Mistake texts index error)
    (first : ∀ earlier < index, ∀ other, ¬ Mistake texts earlier other) :
    Layout.ofLines texts = .error ⟨index, error⟩ := by
  obtain ⟨text, there⟩ := mistake.present
  obtain ⟨inside, here⟩ := List.getElem?_eq_some_iff.mp there
  obtain ⟨front, back, rfl, rfl⟩ : ∃ front back, texts = front ++ [text] ++ back ∧
      front.length = index := by
    refine ⟨texts.take index, texts.drop (index + 1), ?_, by simp; omega⟩
    rw [← here, List.take_append_getElem inside, List.take_append_drop]
  have clean : ∀ index error, ¬ Mistake front index error := by
    intro earlier other wrong
    refine first earlier wrong.inside other ?_
    rw [List.append_assoc]
    exact (mistake_append front _ earlier other wrong.inside).mpr wrong
  obtain ⟨lines, read, once⟩ := reads_of_no_mistake front clean
  have fits : totalSize lines < 0x100000000 := by
    calc totalSize lines
        = totalSize (readable front) := by rw [readable_eq front lines read]
      _ ≤ totalSize (readable (front ++ [text] ++ back)) := by
          rw [readable_append, readable_append, totalSize_append, totalSize_append]
          omega
      _ < 0x100000000 := small
  obtain ⟨layout, laid, follows⟩ := ofLines_reads front lines read once fits
  have failed := addLine_mistake layout front lines text error follows read fits
    ((mistake_append (front ++ [text]) back front.length error (by simp)).mp mistake)
  apply ofLines_error
  rw [ofLines_append, laid]
  simp only [failed]
  rfl

theorem linkAll_fails (labels : LabelTable) (before after : List (Word × Instruction))
    (entry : Word × Instruction) (label : String)
    (defined : ∀ earlier ∈ before, ∀ other, earlier.2.operation.label? = some other →
      (labels.lookup other).isSome)
    (waits : entry.2.operation.label? = some label) (undefined : labels.lookup label = none) :
    linkAll labels (before ++ entry :: after) =
      .error ⟨entry.2.line, .undefinedLabel label⟩ := by
  induction before with
  | nil =>
      rw [List.nil_append, linkAll_cons, link_eq]
      simp only [waits, undefined]
  | cons earlier before ih =>
      obtain ⟨linked, done⟩ := link_succeeds labels earlier.2 (defined earlier List.mem_cons_self)
      have rest := ih fun other member => defined other (List.mem_cons_of_mem _ member)
      rw [List.cons_append, linkAll_cons, done, rest]
      rfl

theorem linkAll_dangling (texts : List String) (lines : List Line) (layout : Layout) (index : Nat)
    (label : String) (read : texts.map Line.ofString = lines.map .ok)
    (follows : layout.Follows lines) (dangling : Dangling texts index label)
    (first : ∀ earlier < index, ∀ other, ¬ Dangling texts earlier other) :
    linkAll layout.labels layout.placed.toList = .error ⟨index, .undefinedLabel label⟩ := by
  have found (label : String) :
      (layout.labels.lookup label).isSome ↔ Defines texts label := by
    rw [lookup_isSome layout.labels lines follows.labels, defines_iff texts lines read]
  obtain ⟨missing, text, line, operation, there, parsed, present, waits⟩ := dangling
  have placed : (addressOf lines index, (⟨operation, index⟩ : Instruction)) ∈
      layout.placed.toList.map numbered := by
    have here := (getElem?_read texts lines read index text line there).mp parsed
    have listed : (⟨addressOf lines index, index, line⟩ : Place) ∈ places lines :=
      (mem_places lines _).mpr ⟨here, rfl⟩
    refine follows.placed ▸ List.mem_filterMap.mpr ⟨_, listed, ?_⟩
    simp only [Place.instruction?, present, Option.map_some]
  obtain ⟨entry, member, same⟩ := List.mem_map.mp placed
  obtain ⟨before, after, split⟩ := List.append_of_mem member
  have instruction : entry.2 = ⟨operation, index⟩ := congrArg Prod.snd same
  have ordered := follows.ordered
  rw [split, List.pairwise_append] at ordered
  rw [split, linkAll_fails layout.labels before after entry label ?_ (by rw [instruction, waits])
    (Option.not_isSome_iff_eq_none.mp fun present => missing ((found label).mp present)), instruction]
  intro earlier inFront other refers
  by_contra absent
  obtain ⟨line', here, operated⟩ := line_of_placed layout lines follows earlier
    (split ▸ List.mem_append_left _ inFront)
  have less : earlier.2.line < index := by
    have apart := ordered.2.2 earlier inFront entry List.mem_cons_self
    rw [instruction] at apart
    exact apart.2
  obtain ⟨text', there', parsed'⟩ := text_of_line texts lines _ line' read here
  exact first earlier.2.line less other ⟨fun defined => absent ((found other).mpr defined), text',
    line', _, there', parsed', operated, refers⟩

/-- Which error assembling reports. A line that the first pass cannot take comes before any label that
is missing, and of either kind the first counts. Where there is neither, assembling succeeds. -/
theorem assemble_reports_first_mistake (source : String)
    (small : totalSize (readable (Text.lines source)) < 0x100000000) :
    (∀ index error, Mistake (Text.lines source) index error →
      (∀ earlier < index, ∀ other, ¬ Mistake (Text.lines source) earlier other) →
      assemble source = .error ⟨index, error⟩) ∧
    ((∀ index error, ¬ Mistake (Text.lines source) index error) →
      (∀ index label, Dangling (Text.lines source) index label →
        (∀ earlier < index, ∀ other, ¬ Dangling (Text.lines source) earlier other) →
        assemble source = .error ⟨index, .undefinedLabel label⟩) ∧
      ((∀ index label, ¬ Dangling (Text.lines source) index label) →
        ∃ program, assemble source = .ok program)) := by
  constructor
  · intro index error mistake first
    simp only [assemble_eq, assembleLines, ofLines_mistake (Text.lines source) index error small mistake first]
  · intro clean
    obtain ⟨lines, read, once⟩ := reads_of_no_mistake (Text.lines source) clean
    rw [readable_eq _ lines read] at small
    constructor
    · intro index label dangling first
      obtain ⟨layout, laid, follows⟩ := ofLines_reads _ lines read once small
      have failed := linkAll_dangling _ lines layout index label read follows dangling first
      simp only [assemble_eq, assembleLines, laid, failed]
      rfl
    · intro complete
      apply assemble_succeeds source lines read (fits_of_small lines small) once
      intro line member operation present label waits
      rw [← defines_iff _ lines read]
      by_contra missing
      obtain ⟨index, there⟩ := List.mem_iff_getElem?.mp member
      obtain ⟨text, here, reads⟩ := text_of_line _ lines index line read there
      exact complete index label ⟨missing, text, line, operation, here, reads, present, waits⟩

def definesTwice : String := "jump [nowhere]\nloop:\nloop: copy r0, 1"

theorem definesTwice_reported :
    assemble definesTwice = .error ⟨2, .labelRedefined "loop"⟩ := by
  have texts : Text.lines definesTwice = ["jump [nowhere]", "loop:", "loop: copy r0, 1"] := by
    decide +kernel
  have first : Line.ofString "jump [nowhere]" =
      .ok ⟨none, some (.jump { offset := some (.label "nowhere") })⟩ := by decide +kernel
  have second : Line.ofString "loop:" = .ok ⟨some "loop", none⟩ := by decide +kernel
  have third : Line.ofString "loop: copy r0, 1" =
      .ok ⟨some "loop", some (.copy .r0 (.immediate 1))⟩ := by decide +kernel
  refine (assemble_reports_first_mistake definesTwice (by decide +kernel)).1 2 _ ?_ ?_
  · rw [texts]
    exact .redefining _ _ "loop" rfl third rfl ⟨_, by simp, _, second, rfl⟩
  · rw [texts]
    intro earlier before error
    obtain rfl | rfl : earlier = 0 ∨ earlier = 1 := by omega
    · exact not_mistake _ 0 _ _ error rfl first nofun
    · refine not_mistake _ 1 _ _ error rfl second ?_
      rintro label - ⟨text, member, line, parsed, named⟩
      obtain rfl : text = "jump [nowhere]" := by simpa using member
      rw [first] at parsed
      cases parsed
      cases named

end ToyComputer.Assembly
