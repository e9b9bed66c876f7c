import SidVoice.Proofs.Json.Codec
import SidVoice.Proofs.Json.Settling

/-!
# The readers as a codec

The readers of chips, strengths and setups take a text one character at a time. Here they are
shown to be a codec that keeps the laws, for every text of the grammar: a skipped value is
skipped exactly, a known value is read as it is from a text of its own, and the first error is
the outcome.

The reader's state after some entries is what they give so far, whichever they are and however
they are written; one entry takes it to the next such state, or stops it.
-/

namespace SidVoice.Json

open Grammar

/-! ## What the readers do with the parts of a text -/

namespace Fields

/-- Read the value of a field that has not been read. -/
def readValue (fields : Fields) (field : Field) (value : ValueText) : Except ReadError Fields :=
  match field with
  | .chip => do return { fields with chip := some (← readChip value.text) }
  | .strength => do return { fields with strength := some (← readStrength value.text) }

/-- Read an entry. -/
def read (fields : Fields) (entry : Entry) : Except ReadError Fields :=
  match Field.ofKey? entry.key with
  | some field =>
    if fields.has field then .error (.rejected (.repeatedField field.key))
    else fields.readValue field entry.value
  | none => .ok fields

end Fields

/-- Read a setup from the entries of an object. -/
def readEntries (fields : Fields) (entries : List Entry) : Except ReadError Setup := do
  return (← entries.foldlM Fields.read fields).toSetup

/-- Read a setup from the elements of a list. -/
def readItems : List ValueText → Except ReadError (Setup × List ValueText)
  | [] => .ok (default, [])
  | [chip] => do return ({ chip := ← readChip chip.text }, [])
  | chip :: strength :: rest => do
    return (⟨← readChip chip.text, ← readStrength strength.text⟩, rest)

/-- The codec of the readers. -/
def readers : Codec ReadError where
  chip := readChip
  strength := readStrength
  setup := readSetup
  ofEntries := readEntries
  ofItems := readItems
  write := writeSetup

/-! ## Names -/

section Name

variable {α : Type} {names : Names α} {name : String} {value : α}

theorem named_eq (hname : names.find? name = some value)
    (onValue : α → Step (NameState α) α) :
    NameState.named names onValue (String.ofList name.toList) = onValue value := by
  rw [String.ofList_toList, NameState.named, hname]

/-- A name is read in either form. -/
theorem reads_name (hname : names.find? name = some value) {text : List Char}
    (h : NameText name text) : Reads (NameState.step names) .start text value := by
  cases h with
  | text hbody =>
    exact .cons (m := .text {}) rfl
      ((reads_decode hbody).within NameState.text (fun _ _ => rfl) (named_eq hname _))
  | @key before body after space last hbefore hbody hafter hspace hlast =>
    have hopened : Leads (NameState.step names) .start ('\x7b' :: before) .opened :=
      .cons (m := .opened) rfl (.blank (fun _ hc => if_pos hc) hbefore)
    have hkey : Leads (NameState.step names) .opened (inQuotes body) (.colon value) :=
      .cons (m := .key {}) rfl
        ((reads_decode hbody).leads NameState.key (fun _ _ => rfl) (named_eq hname _))
    have hcolon : Leads (NameState.step names) (.colon value) after (.colon value) :=
      .blank (fun _ hc => if_pos hc) hafter
    have hunit : Leads (NameState.step names) (.colon value) (':' :: space) (.unit value) :=
      .cons (m := .unit value) rfl (.blank (fun _ hc => if_pos hc) hspace)
    have hnull : Leads (NameState.step names) (.unit value) ['n', 'u', 'l', 'l']
        (.closing value) :=
      .cons rfl (.cons rfl (.cons rfl (.single rfl)))
    have hclosing : Leads (NameState.step names) (.closing value) last (.closing value) :=
      .blank (fun _ hc => if_pos hc) hlast
    exact (((((hopened.append hkey).append hcolon).append hunit).append hnull).append
      hclosing).reads (.last rfl)

/-- A name with blanks around it is read as its value. -/
theorem read_paddedName (hname : names.find? name = some value) {text : List Char}
    (h : PaddedName name text) : (nameReader names).read text = .ok value := by
  obtain ⟨hbefore, htext, hafter⟩ := h
  have hblank : Leads (nameReader names).step (nameReader names).start _
      (nameReader names).start :=
    .blank (fun _ hc => if_pos hc) hbefore
  exact Reader.read_of_reads (hblank.reads (reads_name hname htext)) hafter

end Name

theorem find?_chip (chip : Chip) : chipNames.find? chip.key = some chip := by
  cases chip <;> decide

theorem find?_strength (strength : Strength) :
    strengthNames.find? strength.key = some strength := by
  cases strength <;> decide

theorem readers_nameLaws : readers.NameLaws where
  chip := read_paddedName (find?_chip _)
  strength := read_paddedName (find?_strength _)

/-! ## Entries -/

section Entry

variable {fields : Fields} {entry : Entry} {state : SetupState} {text rest : List Char}

/-- The value of an entry is over, or it is a number that may end here. -/
def Over (fields : Fields) (state : SetupState) : Prop :=
  state = .afterMember fields ∨ ∃ skip, state = .skipped fields skip ∧ skip.Closed []

theorem skippedStep_eq (fields : Fields) (skip : Skip) (c : Char) :
    SetupState.skippedStep fields skip c =
      (skip.pass c).within (.skipped fields) fun _ => SetupState.afterMemberStep fields c := by
  simp only [SetupState.skippedStep, Skip.pass]
  cases (skip.settle c).isOver with
  | true => rfl
  | false => cases (skip.settle c).advance c <;> rfl

/-- What follows an entry does not see how its value was read. -/
theorem step_of_over (h : Over fields state) {c : Char} (hc : Skip.Follows c) :
    state.step c = SetupState.afterMemberStep fields c := by
  obtain rfl | ⟨skip, rfl, hclosed⟩ := h
  · rfl
  · rw [SetupState.step, skippedStep_eq, Skip.pass_of_closed hclosed hc]
    rfl

/-- Blanks after an entry leave it over. -/
theorem leads_over (h : Over fields state) {blank : List Char} (hblank : Blank blank) :
    ∃ last, Leads SetupState.step state blank last ∧ Over fields last := by
  have hfirst : ∀ c, isSpace c = true → state.step c = .more (.afterMember fields) :=
    fun c hc => (step_of_over h (.inl hc)).trans (if_pos hc)
  obtain ⟨last, hlast, rfl | rfl⟩ := Leads.blank_to hfirst (fun c hc => if_pos hc) hblank
  · exact ⟨last, hlast, h⟩
  · exact ⟨_, hlast, .inl rfl⟩

/-- The text leads to the end of an entry with these fields read, or it stops the reader. -/
inductive Fills (state : SetupState) (text : List Char) : Except ReadError Fields → Prop
  | filled {fields : Fields} {last : SetupState} :
    Leads SetupState.step state text last → Over fields last → Fills state text (.ok fields)
  | stopped {e : ReadError} : Stops SetupState.step state text e → Fills state text (.error e)

/-- What a text fills is what its rest fills from where its beginning leads. -/
theorem Fills.after {middle : SetupState} {outcome : Except ReadError Fields}
    (h : Fills middle rest outcome) (hleads : Leads SetupState.step state text middle) :
    Fills state (text ++ rest) outcome := by
  cases h with
  | filled hrest hover => exact .filled (hleads.append hrest) hover
  | stopped hstops => exact .stopped (hleads.stops hstops)

theorem fills_of_takes {α : Type} {given : Except ReadError α} {next : α → Fields}
    (h : Takes SetupState.step state text
      (given.bind fun value => Step.more (.afterMember (next value)))) :
    Fills state text (given.bind fun value => .ok (next value)) := by
  cases given with
  | ok value => exact .filled h (.inl rfl)
  | error e => exact .stopped h

/-- The value of a known field is read by the reader of names. -/
theorem fills_value (fields : Fields) (field : Field) (value : ValueText) :
    Fills (.member fields (some field)) value.text.toList (fields.readValue field value) := by
  cases field with
  | chip =>
    have htakes : Takes SetupState.step (.chipMember fields .start) value.text.toList
        ((readChip value.text).bind fun c =>
          Step.more (.afterMember { fields with chip := some c })) :=
      takes_padded chipNames (SetupState.chipMember fields) value.valid (fun _ _ => rfl)
        fun _ _ hc => if_pos hc
    exact fills_of_takes htakes
  | strength =>
    have htakes : Takes SetupState.step (.strengthMember fields .start) value.text.toList
        ((readStrength value.text).bind fun s =>
          Step.more (.afterMember { fields with strength := some s })) :=
      takes_padded strengthNames (SetupState.strengthMember fields) value.valid (fun _ _ => rfl)
        fun _ _ hc => if_pos hc
    exact fills_of_takes htakes

/-- The value of an unknown field is skipped. -/
theorem fills_skipped (fields : Fields) (h : Phrase .padded text) :
    Fills (.member fields none) text (.ok fields) := by
  cases h with
  | @padded before core after hbefore hvalue hafter =>
    obtain ⟨skip, hskip, hclosed⟩ := Skip.passes_phrase hvalue (Skip.Begins.value (.inl rfl))
    have hwaits : ({} : Skip).Waits := trivial
    have hcourse : Leads Skip.pass {} (before ++ core) skip :=
      (Skip.leads_blank hwaits hbefore).append hskip
    have hskipped : Leads SetupState.step (.skipped fields {}) (before ++ core)
        (.skipped fields skip) :=
      hcourse.along (SetupState.skipped fields) fun skip next c hc => by
        rw [SetupState.step, skippedStep_eq, hc, Step.within_more]
    obtain ⟨last, hlast, hover⟩ := leads_over (.inr ⟨skip, rfl, hclosed⟩) hafter
    exact .filled (hskipped.append hlast) hover

/-- Before a key, with these fields read so far. -/
def AtKey (fields : Fields) (state : SetupState) : Prop :=
  state = .nextKey fields ∨ state = .firstKey ∧ fields = {}

/-- An entry is read from the fields before it, whichever they are. -/
theorem fills_entry (hstate : AtKey fields state) (h : EntryText entry text) :
    Fills state text (fields.read entry) := by
  obtain @⟨before, body, after, hbefore, hbody, hafter⟩ := h
  have hblank : Leads SetupState.step state before state := by
    obtain rfl | ⟨rfl, rfl⟩ := hstate <;> exact .blank (fun _ hc => if_pos hc) hbefore
  have hquote : state.step '"' = .more (.key fields {}) := by
    obtain rfl | ⟨rfl, rfl⟩ := hstate <;> rfl
  have hkey : Takes SetupState.step (.key fields {}) (body ++ ['"'])
      (SetupState.keyed fields entry.key) := by
    have hread : Takes SetupState.step (.key fields {}) (body ++ ['"'])
        (SetupState.keyed fields (String.ofList entry.key.toList)) :=
      (reads_decode hbody).takes (SetupState.key fields) fun _ _ => rfl
    rwa [String.ofList_toList] at hread
  have hcolon (field : Option Field) : Leads SetupState.step (.colon fields field)
      (after ++ [':']) (.member fields field) :=
    (Leads.blank (fun _ hc => if_pos hc) hafter).append (.single rfl)
  have htext : before ++ inQuotes body ++ after ++ ':' :: entry.value.text.toList =
      before ++ ['"'] ++ (body ++ ['"'] ++ (after ++ [':'] ++ entry.value.text.toList)) := by
    simp [inQuotes]
  rw [htext, Fields.read]
  refine Fills.after ?_ (hblank.append (.single hquote))
  rw [SetupState.keyed] at hkey
  cases hfield : Field.ofKey? entry.key with
  | none =>
    rw [hfield] at hkey
    exact ((fills_skipped fields entry.value.valid).after (hcolon none)).after hkey
  | some field =>
    rw [hfield] at hkey
    cases hhas : fields.has field with
    | true =>
      simp only [hhas, if_true] at hkey ⊢
      exact .stopped (Stops.append hkey _)
    | false =>
      simp only [hhas, Bool.false_eq_true, if_false] at hkey ⊢
      exact ((fills_value fields field entry.value).after (hcolon (some field))).after hkey

/-- Entries are read one after the other, and the first error is the outcome. -/
theorem fills_entries {entries : List Entry} (h : EntriesText entries text)
    (hstate : AtKey fields state) : Fills state text (entries.foldlM Fields.read fields) := by
  induction h generalizing fields state with
  | last hentry =>
    simp only [List.foldlM_cons, List.foldlM_nil, bind_pure]
    exact fills_entry hstate hentry
  | @cons entry entries text rest hentry _ ih =>
    have hfirst := fills_entry hstate hentry
    rw [List.foldlM_cons]
    cases hread : fields.read entry with
    | error e =>
      rw [hread] at hfirst
      cases hfirst with
      | stopped hstops => exact .stopped (hstops.append _)
    | ok next =>
      rw [hread] at hfirst
      cases hfirst with
      | @filled _ last hleads hover =>
        have hcomma : last.step ',' = .more (.nextKey next) :=
          (step_of_over hover (.inr (.inl rfl))).trans rfl
        rw [List.append_cons]
        exact (ih (.inl rfl)).after (hleads.append (.single hcomma))

/-- An object is read as its entries. -/
theorem read_objectText {entries : List Entry} (h : ObjectText entries text) :
    setupReader.read text = readEntries {} entries := by
  cases h with
  | @empty before blank after hbefore hblank hafter =>
    have hopening : Leads SetupState.step .start (before ++ '\x7b' :: blank) .firstKey :=
      (Leads.blank (fun _ hc => if_pos hc) hbefore).append
        (.cons rfl (.blank (fun _ hc => if_pos hc) hblank))
    exact Reader.read_of_reads (hopening.reads (.last rfl)) hafter
  | @entries _ before text after hbefore hentries hafter =>
    have hopening : Leads SetupState.step .start (before ++ ['\x7b']) .firstKey :=
      (Leads.blank (fun _ hc => if_pos hc) hbefore).append (.single rfl)
    have hfills := (fills_entries hentries (.inr ⟨rfl, rfl⟩)).after hopening
    rw [List.append_cons before]
    refine Reader.read_of_settles ?_ hafter
    rw [readEntries]
    generalize entries.foldlM Fields.read {} = outcome at hfills ⊢
    cases hfills with
    | @filled fields last hleads hover =>
      have hclosing : last.step '\x7d' = .done fields.toSetup :=
        (step_of_over hover (.inr (.inr (.inr rfl)))).trans rfl
      exact .read (hleads.reads (.last hclosing))
    | stopped hstops => exact .stopped (hstops.append _)

end Entry

theorem Fields.read_of_unknown {fields : Fields} {entry : Entry}
    (h : Field.ofKey? entry.key = none) : fields.read entry = .ok fields := by
  simp only [Fields.read, h]

theorem Fields.read_of_has {fields : Fields} {field : Field} (h : fields.has field = true)
    (value : ValueText) :
    fields.read ⟨field.key, value⟩ = .error (.rejected (.repeatedField field.key)) := by
  simp only [Fields.read, Field.ofKey?_key, h, if_true]

theorem Fields.read_of_not_has {fields : Fields} {field : Field} (h : fields.has field = false)
    (value : ValueText) : fields.read ⟨field.key, value⟩ = fields.readValue field value := by
  simp only [Fields.read, Field.ofKey?_key, h, Bool.false_eq_true, if_false]

theorem readEntries_cons (fields : Fields) (entry : Entry) (rest : List Entry) :
    readEntries fields (entry :: rest) =
      (fields.read entry).bind fun next => readEntries next rest := by
  rw [readEntries, List.foldlM_cons, bind_assoc]
  rfl

theorem readers_objectLaws : readers.ObjectLaws where
  object := read_objectText
  entries_nil _ := rfl
  entries_other fields entry rest h := by
    change readEntries _ _ = readEntries _ _
    rw [readEntries_cons, Fields.read_of_unknown h]
    rfl
  entries_repeated fields field h := by
    refine ⟨.rejected (.repeatedField field.key), fun value rest => ?_⟩
    change readEntries _ _ = _
    rw [readEntries_cons, Fields.read_of_has h]
    rfl
  entries_chip fields value rest h := by
    change readEntries _ _ = (readChip _).bind fun c => readEntries _ _
    rw [readEntries_cons, Fields.read_of_not_has h, Fields.readValue]
    cases readChip value.text <;> rfl
  entries_strength fields value rest h := by
    change readEntries _ _ = (readStrength _).bind fun s => readEntries _ _
    rw [readEntries_cons, Fields.read_of_not_has h, Fields.readValue]
    cases readStrength value.text <;> rfl

/-! ## Elements -/

/-- The first character of a value is no blank, and it closes no list. -/
theorem exists_cons_of_value {text : List Char} (h : Phrase .value text) :
    ∃ c rest, text = c :: rest ∧ isSpace c = false ∧ c ≠ ']' := by
  cases h with
  | null | true | false | text | emptyList | list | emptyObject | object =>
    exact ⟨_, _, rfl, rfl, by decide⟩
  | number hnumeral =>
    obtain ⟨c, rest, first, last, rfl, hstart, -⟩ := NumberPhase.leads_numeral hnumeral
    exact ⟨c, rest, rfl, NumberPhase.isSpace_of_start? hstart,
      NumberPhase.ne_of_start? hstart rfl⟩

/-- A list that is not empty goes on with its first element. -/
theorem takes_firstItem {text : List Char} (htext : Phrase .padded text)
    {effect : Step SetupState Setup}
    (h : Takes SetupState.step (.chipItem .start) text effect) :
    Takes SetupState.step .firstItem text effect := by
  cases htext with
  | @padded before core after hbefore hvalue hafter =>
    obtain ⟨c, rest, rfl, hspace, hclose⟩ := exists_cons_of_value hvalue
    rw [List.append_assoc] at h ⊢
    have hopened : Leads SetupState.step .firstItem before .firstItem :=
      .blank (fun _ hc => if_pos hc) hbefore
    have hitem : Leads SetupState.step (.chipItem .start) before (.chipItem .start) :=
      .blank (fun c hc => by
        rw [SetupState.step, SetupState.chipItemStep, NameState.step, if_pos hc, Step.within_more])
        hbefore
    have hspace : ¬ isSpace c = true := Bool.eq_false_iff.mp hspace
    have hstep : SetupState.step .firstItem c = SetupState.step (.chipItem .start) c := by
      rw [SetupState.step, if_neg hspace, if_neg hclose, SetupState.step]
    exact hopened.takes ((h.drop hitem).of_step_eq hstep)

/-- The first element of a list is read as the chip. -/
theorem takes_chipItem (item : ValueText) :
    Takes SetupState.step .firstItem item.text.toList
      ((readChip item.text).bind fun c => Step.more (.afterChip c)) :=
  takes_firstItem item.valid
    (takes_padded chipNames SetupState.chipItem item.valid (fun _ _ => rfl)
      fun _ _ hc => if_pos hc)

/-- The second element of a list is read as the strength. -/
theorem takes_strengthItem (chip : Chip) (item : ValueText) :
    Takes SetupState.step (.afterChip chip) (',' :: item.text.toList)
      ((readStrength item.text).bind fun s => Step.more (.full ⟨chip, s⟩)) :=
  Takes.cons rfl (takes_padded strengthNames (SetupState.strengthItem chip) item.valid
    (fun _ _ => rfl) fun _ _ hc => if_pos hc)

/-- The outcome of a list: its setup, if no element is left. -/
def endItems : Setup × List ValueText → Except ReadError Setup
  | (setup, []) => .ok setup
  | (_, _ :: _) => .error .malformed

theorem readItems_bind (chip strength : ValueText) (left : List ValueText) :
    ((readItems (chip :: strength :: left)).bind endItems).bind Step.done =
      (readChip chip.text).bind fun c => (readStrength strength.text).bind fun s =>
        ((endItems (⟨c, s⟩, left)).bind Step.done : Step SetupState Setup) := by
  rw [readItems]
  cases readChip chip.text with
  | error e => rfl
  | ok c => cases readStrength strength.text <;> rfl

/-- After the second element a list goes on from its setup. -/
theorem takes_bothItems (chip strength : ValueText) {rest : List Char}
    {k : Setup → Step SetupState Setup}
    (h : ∀ setup, Takes SetupState.step (.full setup) rest (k setup)) :
    Takes SetupState.step .firstItem (chip.text.toList ++ (',' :: strength.text.toList ++ rest))
      ((readChip chip.text).bind fun c => (readStrength strength.text).bind fun s => k ⟨c, s⟩) :=
  (takes_chipItem chip).bind fun c => (takes_strengthItem c strength).bind fun s => h ⟨c, s⟩

theorem settles_of_takes {state : SetupState} {text : List Char}
    {outcome : Except ReadError Setup}
    (h : Takes SetupState.step state text (outcome.bind Step.done)) :
    Settles SetupState.step state text outcome := by
  cases outcome with
  | ok setup => exact .read h
  | error e => exact .stopped h

/-- The elements up to the closing bracket settle the reader, at the latest with the comma after
the second of them. -/
theorem settles_items {items : List ValueText} {text : List Char} (h : ItemsText items text) :
    Settles SetupState.step .firstItem (text ++ [']']) ((readItems items).bind endItems) := by
  refine settles_of_takes ?_
  cases h with
  | @last chip =>
    have houtcome : ((readItems [chip]).bind endItems).bind Step.done =
        (readChip chip.text).bind fun c => (Step.done { chip := c } : Step SetupState Setup) := by
      rw [readItems]
      cases readChip chip.text <;> rfl
    rw [houtcome]
    exact (takes_chipItem chip).bind fun _ => Reads.last rfl
  | @cons chip items rest hrest =>
    cases hrest with
    | @last strength =>
      have hclosing : ∀ setup, Takes SetupState.step (.full setup) [']'] (Step.done setup) :=
        fun _ => Reads.last rfl
      rw [readItems_bind, List.append_assoc]
      exact takes_bothItems chip strength hclosing
    | @cons strength items rest hrest =>
      obtain ⟨item, items, rfl⟩ := List.exists_cons_of_ne_nil hrest.ne_nil
      have hcomma : ∀ setup, Takes SetupState.step (.full setup) (',' :: rest ++ [']'])
          Step.malformed :=
        fun _ => Stops.last rfl
      rw [readItems_bind, List.append_assoc, List.cons_append, List.append_assoc]
      exact takes_bothItems chip strength hcomma

/-- A list is read as its elements. -/
theorem read_listText {items : List ValueText} {text : List Char} (h : ListText items text) :
    setupReader.read text = (readItems items).bind endItems := by
  cases h with
  | @empty before blank after hbefore hblank hafter =>
    have hopening : Leads SetupState.step .start (before ++ '[' :: blank) .firstItem :=
      (Leads.blank (fun _ hc => if_pos hc) hbefore).append
        (.cons rfl (.blank (fun _ hc => if_pos hc) hblank))
    exact Reader.read_of_reads (hopening.reads (.last rfl)) hafter
  | @items _ before text after hbefore hitems hafter =>
    have hopening : Leads SetupState.step .start (before ++ ['[']) .firstItem :=
      (Leads.blank (fun _ hc => if_pos hc) hbefore).append (.single rfl)
    rw [List.append_cons before, List.append_assoc (before ++ ['['])]
    exact Reader.read_of_settles (hopening.settles (settles_items hitems)) hafter

theorem readers_listLaws : readers.ListLaws where
  list_taken htext hitems := by
    have hread := read_listText htext
    rw [show readItems _ = _ from hitems] at hread
    exact hread
  list_left := by
    intro items rest text setup htext hitems hrest
    have hread := read_listText htext
    rw [show readItems _ = _ from hitems] at hread
    obtain ⟨item, rest, rfl⟩ := List.exists_cons_of_ne_nil hrest
    exact ⟨_, hread⟩
  list_failed htext hitems := by
    have hread := read_listText htext
    rw [show readItems _ = _ from hitems] at hread
    exact hread
  items_nil := rfl
  items_one a := rfl
  items_more a b rest := rfl

/-! ## Written setups -/

theorem toList_quoted (text : String) : (quoted text).toList = inQuotes text.toList := by
  simp only [quoted, String.toList_append]
  rfl

/-- A name between quotes that needs no escapes. -/
theorem paddedName_quoted {name : String}
    (h : name.toList.all (fun c => decide (Plain c)) = true) :
    PaddedName name (quoted name).toList := by
  have hpadded := PaddedName.padded blank_nil (NameText.text (Spells.self h)) blank_nil
  rwa [List.nil_append, List.append_nil, ← toList_quoted] at hpadded

theorem paddedName_writeChip (chip : Chip) : PaddedName chip.key (writeChip chip).toList :=
  paddedName_quoted (by cases chip <;> decide)

theorem paddedName_writeStrength (strength : Strength) :
    PaddedName strength.key (writeStrength strength).toList :=
  paddedName_quoted (by cases strength <;> decide)

/-- An entry written without blanks around its key. -/
theorem entryText_quoted {key : String} (h : Spells key.toList key.toList) (value : ValueText) :
    EntryText ⟨key, value⟩ (inQuotes key.toList ++ ':' :: value.text.toList) := by
  have hentry : EntryText ⟨key, value⟩ _ := .entry blank_nil h blank_nil
  rwa [List.nil_append, List.append_nil] at hentry

theorem spells_key (field : Field) : Spells field.key.toList field.key.toList :=
  .self (by cases field <;> decide)

/-- The written form of a chip as a value. -/
def chipValue (chip : Chip) : ValueText := ⟨writeChip chip, (paddedName_writeChip chip).valid⟩

/-- The written form of a strength as a value. -/
def strengthValue (strength : Strength) : ValueText :=
  ⟨writeStrength strength, (paddedName_writeStrength strength).valid⟩

/-- A setup is written as an object with both its fields. -/
theorem readers_writesMembers : readers.WritesMembers := by
  intro setup
  refine ⟨entriesOf [chipValue setup.chip, strengthValue setup.strength], ?_, ?_⟩
  · have hobject := ObjectText.entries blank_nil
      (.cons (entryText_quoted (spells_key .chip) (chipValue setup.chip))
        (.last (entryText_quoted (spells_key .strength) (strengthValue setup.strength))))
      blank_nil
    simpa [readers, writeSetup, toList_quoted, chipValue, strengthValue, entriesOf] using hobject
  · exact .cons (.chip (paddedName_writeChip setup.chip))
      (.cons (.strength (paddedName_writeStrength setup.strength)) .nil)

end SidVoice.Json
