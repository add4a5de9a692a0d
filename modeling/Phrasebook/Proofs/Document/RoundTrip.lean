import Phrasebook.Proofs.Document.Mirror

/-!
# Documents that are read back

A document that calls on a draft wrote is read back as the outline of the calls, whatever the calls
are and whichever of them are refused.
-/

namespace Phrasebook.Document

open Phrasebook.Calendar Phrasebook.Markup Phrasebook.Text

/-! ## The two ends of a document -/

theorem elementName_rootElement : ElementName rootElement := by decide

def titlePage (sink : Sink) (generated : Instant) (locale : String) : Page :=
  (({ sink := sink } : Page).put .declaration).put
    (.start rootElement (rootAttributes generated locale))

section

variable {sink : Sink} (patient : sink.patience = none)

include patient

@[simp] theorem patience_titlePage (generated : Instant) (locale : String) :
    (titlePage sink generated locale).sink.patience = none := by
  simp [titlePage, patient]

theorem Draft.start_eq (locale : String) (generated : Instant) :
    Draft.start sink locale generated = (.ok (), { page := titlePage sink generated locale }) :=
  @Draft.run_writeItems { page := { sink := sink } } patient _

theorem Told.title (generated : Instant) (locale : String) :
    Told (Utf8.encode (titlePage sink generated locale).sink.text)
      (titlePage sink generated locale) [] .root :=
  ⟨patience_titlePage patient generated locale, [], (List.append_nil _).symm, .refl .root⟩

/-- A document that was begun is read up to its root element, whose tag holds the header. -/
theorem opens_titlePage (fresh : sink.text = "") (generated : Instant) (locale : String)
    (more : Bytes) :
    ∃ next, ofBytes (Utf8.encode (titlePage sink generated locale).sink.text ++ more) =
      (header ⟨next, none⟩ (writtenTag rootElement (rootAttributes generated locale))).map
        fun header ↦
          ⟨header, next, .ofStream .root (.scan (.text []) Stage.root.names next more)⟩ := by
  have plain : ∀ pair ∈ rootAttributes generated locale, PlainName pair.1 :=
    List.forall_mem_map.1 (plainNames_rootAttributes generated locale).1
  obtain ⟨declared, declaration, declares⟩ := Item.declaration_tells []
  obtain ⟨opened, start, opens⟩ := Item.start_tells [] elementName_rootElement plain
  let blank : Page := { sink := sink }
  let titled := blank.put .declaration
  have patient_titled : titled.sink.patience = none := Page.patience_put patient .declaration
  let lead := titled.leadBytes (.start rootElement (rootAttributes generated locale))
  have free : (0x3C : UInt8) ∉ lead := fun mem ↦
    absurd (Page.isSpace_of_mem_leadBytes mem) (by decide)
  have blank_lead : lead.all isBlankByte = true := by
    refine List.all_eq_true.2 fun byte mem ↦ ?_
    rw [isBlankByte, Page.isSpace_of_mem_leadBytes mem, Bool.true_or]
  have spelled : Utf8.encode (titlePage sink generated locale).sink.text =
      0x3C :: (declared ++ (lead ++ 0x3C :: opened)) := by
    have inline : blank.leadBytes .declaration = [] := Page.leadBytes_inline rfl
    rw [titlePage, Page.encode_put patient_titled, start, Page.encode_put patient, inline,
      declaration]
    show Utf8.encode sink.text ++ _ ++ _ = _
    rw [fresh]
    simp [lead, titled, blank, Utf8.encode]
  obtain ⟨titled_at, declares⟩ := declares 1 (lead ++ 0x3C :: (opened ++ more))
  obtain ⟨here, next, scanned⟩ := opens.after_text free titled_at more
  have whole : Stream.ofBytes (Utf8.encode (titlePage sink generated locale).sink.text ++ more) =
      .event .directive titled_at (.textOnto lead here
        (.event (.start (writtenTag rootElement (rootAttributes generated locale))) next
          (.scan (.text []) Stage.root.names next more))) := by
    rw [spelled, List.cons_append, List.append_assoc, List.append_assoc, List.cons_append]
    exact declares.trans (congrArg (Stream.event .directive titled_at) scanned)
  have begun : ofStream (.event (.start (writtenTag rootElement (rootAttributes generated locale)))
      next (.scan (.text []) Stage.root.names next more)) =
      (header ⟨next, none⟩ (writtenTag rootElement (rootAttributes generated locale))).map
        fun header ↦
          ⟨header, next, .ofStream .root (.scan (.text []) Stage.root.names next more)⟩ := by
    rw [ofStream, if_pos (name_writtenTag elementName_rootElement.1)]
  refine ⟨next, ?_⟩
  rw [ofBytes, whole, ofStream, Stream.textOnto]
  split
  · exact begun
  · rw [ofStream, if_pos blank_lead]
    exact begun

end

section

variable {prologue : Bytes} {page : Page} {sections : List Section}

/-- Behind what was told, an item is read as its event. -/
theorem Told.reads_item {stage : Stage} {item : Item} {event : Event} {names : List Bytes}
    (told : Told prologue page sections stage)
    (outside : Takes stage (page.leadBytes item) stage)
    (tells : item.Tells stage.names event names) :
    ∃ body, Utf8.encode (page.put item).sink.text = prologue ++ body ∧
      ∀ position more, ∃ next,
        (Sections.ofStream .root (.scan (.text []) Stage.root.names position (body ++ more))).all =
          (Sections.ofStream stage (.event event next (.scan (.text []) names next more))).all.map
            (sections ++ ·) := by
  obtain ⟨patient, body, text, reads⟩ := told
  obtain ⟨bytes, bracketed, spells⟩ := tells
  have free : (0x3C : UInt8) ∉ page.leadBytes item := fun mem ↦
    absurd (Page.isSpace_of_mem_leadBytes mem) (by decide)
  refine ⟨body ++ (page.leadBytes item ++ 0x3C :: bytes), ?_, fun position more ↦ ?_⟩
  · rw [Page.encode_put patient, text, List.append_assoc, bracketed]
  · obtain ⟨between, read⟩ := reads position (page.leadBytes item ++ 0x3C :: (bytes ++ more))
    obtain ⟨here, next, scanned⟩ := spells.after_text free between more
    refine ⟨next, ?_⟩
    rw [List.append_assoc, List.append_assoc, List.cons_append, read, scanned, outside here]

theorem Told.ends (told : Told prologue page sections .root) :
    ∃ body, Utf8.encode (page.put (.close rootElement)).sink.text = prologue ++ body ∧
      ∀ position more, (Sections.ofStream .root
        (.scan (.text []) Stage.root.names position (body ++ more))).all = .ok sections := by
  obtain ⟨body, text, reads⟩ :=
    told.reads_item (takes_lead_root _) (Item.close_tells [] elementName_rootElement)
  refine ⟨body, text, fun position more ↦ ?_⟩
  obtain ⟨next, read⟩ := reads position more
  rw [read]
  exact congrArg Except.ok (List.append_nil _)

def Page.ended (page : Page) : Page :=
  let closed := page.put (.close rootElement)
  { closed with sink := { closed.sink with text := closed.sink.text ++ "\n" } }

theorem Page.encode_ended (page : Page) :
    Utf8.encode (Page.ended page).sink.text =
      Utf8.encode (page.put (.close rootElement)).sink.text ++ Utf8.encode "\n" :=
  Utf8.encode_append _ _

theorem Draft.run_last {draft : Draft} (patient : draft.page.sink.patience = none) :
    (do writeItem (.close rootElement)
        writePlain "\n" : DraftM Unit).run draft =
      (.ok (), { draft with page := Page.ended draft.page }) := by
  have closed := Page.patience_put patient (.close rootElement)
  simp [writePlain, patient, Sink.write_of_patient closed, Page.ended]

end

/-- A draft is finished from any state, and what follows the prologue is read as its sections. -/
theorem Mirrors.finish {prologue : Bytes} {draft : Draft} {outline : Outline}
    (mirrors : Mirrors prologue draft outline) :
    ∃ finished body, Draft.finish.run draft = (.ok (), finished) ∧
      Utf8.encode finished.text = prologue ++ body ∧
      ∀ position, (Sections.ofStream .root (.scan (.text []) Stage.root.names position body)).all =
        .ok (outline.sections.map Section.readBack) := by
  obtain ⟨ended, ends, mirrored⟩ := mirrors.endOpenFile
  have closed : outline.close.stage = .root := rfl
  have told := mirrored.told
  rw [closed] at told
  obtain ⟨body, text, read⟩ := told.ends
  refine ⟨{ ended with page := Page.ended ended.page }, body ++ Utf8.encode "\n", ?_, ?_,
    fun position ↦ read position _⟩
  · rw [Draft.finish, run_bind_of_ok ends, Draft.run_last told.patient]
  · rw [← List.append_assoc, ← text]
    exact Page.encode_ended ended.page

/-! ## Sequences of calls -/

/-- The draft after calls, with what each of them answered; a refusal does not keep the others from
being made. -/
def Draft.performAll (draft : Draft) : List Call → List (Except Fault Unit) × Draft
  | [] => ([], draft)
  | call :: calls =>
    let (answer, next) := call.step.run draft
    let (answers, last) := next.performAll calls
    (answer :: answers, last)

namespace Outline

/-- What is asked of a call: its data can be spelled, and a comment stands between sections. -/
def Allows (outline : Outline) : Call → Prop
  | .startFile origin => origin.Ordinary
  | .writeEntry entry => entry.Spellable
  | .deferEntry entry => entry.Spellable
  | .flush => True
  | .endFile => True
  | .comment _ => outline.current = none

instance (outline : Outline) (call : Call) : Decidable (outline.Allows call) :=
  match call with
  | .startFile origin => inferInstanceAs (Decidable origin.Ordinary)
  | .writeEntry entry => inferInstanceAs (Decidable entry.Spellable)
  | .deferEntry entry => inferInstanceAs (Decidable entry.Spellable)
  | .flush => .isTrue trivial
  | .endFile => .isTrue trivial
  | .comment _ => inferInstanceAs (Decidable (outline.current = none))

def AllowsAll (outline : Outline) : List Call → Prop
  | [] => True
  | call :: calls => outline.Allows call ∧ (outline.record call).AllowsAll calls

instance decidableAllowsAll (outline : Outline) (calls : List Call) :
    Decidable (outline.AllowsAll calls) :=
  match calls with
  | [] => .isTrue trivial
  | call :: calls =>
    have := decidableAllowsAll (outline.record call) calls
    inferInstanceAs (Decidable (_ ∧ _))

end Outline

namespace Mirrors

variable {prologue : Bytes} {draft : Draft} {outline : Outline}

/-- A draft and its outline stay together, whatever is called. -/
theorem call (mirrors : Mirrors prologue draft outline) {call : Call}
    (allowed : outline.Allows call) :
    ∃ after, call.step.run draft = (outline.answer call, after) ∧
      Mirrors prologue after (outline.record call) := by
  cases call with
  | startFile origin => exact mirrors.startFile allowed
  | writeEntry entry => exact mirrors.writeEntry allowed
  | deferEntry entry => exact mirrors.deferEntry allowed
  | flush => exact mirrors.flush
  | endFile => exact mirrors.endFile
  | comment text => exact mirrors.comment allowed text

/-- Calls on a draft are answered as the outline says, and the draft holds what it says. -/
theorem performAll (mirrors : Mirrors prologue draft outline) {calls : List Call}
    (allowed : outline.AllowsAll calls) :
    ∃ after, draft.performAll calls = (outline.answers calls, after) ∧
      Mirrors prologue after (outline.recordAll calls) := by
  induction calls generalizing draft outline with
  | nil => exact ⟨draft, rfl, mirrors⟩
  | cons call calls ih =>
    obtain ⟨next, answer, mirrored⟩ := mirrors.call allowed.1
    obtain ⟨after, answers, mirrored⟩ := ih mirrored allowed.2
    refine ⟨after, ?_, mirrored⟩
    rw [Draft.performAll, answer]
    dsimp only
    rw [answers]
    rfl

end Mirrors

end Phrasebook.Document
