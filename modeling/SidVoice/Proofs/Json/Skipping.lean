import SidVoice.Json.Skip
import SidVoice.Proofs.Json.Course

/-!
# Skipping exactly one value

A value is skipped to its end and no further, however deep its lists and objects go. The proof
follows the grammar: each part of a value's text leaves the brackets that were open before it
open, and nothing else.

A number is the one value whose last character does not close it. So the state after a value is
`Closed`: over, or a number that may end here, which every character that can follow a value
turns into the same thing.
-/

namespace SidVoice.Json

open Grammar

/-! ## Numbers -/

namespace NumberPhase

/-- A character that belongs to a number, as a step of a reader that is never done. -/
def pass (phase : NumberPhase) (c : Char) : Step NumberPhase Unit :=
  match phase.next? c with
  | some next => .more next
  | none => .malformed

theorem pass_of_next? {phase next : NumberPhase} {c : Char} (h : phase.next? c = some next) :
    phase.pass c = .more next := by
  rw [pass, h]

theorem next?_of_pass {phase next : NumberPhase} {c : Char} (h : phase.pass c = .more next) :
    phase.next? c = some next := by
  unfold pass at h
  split at h
  · next hnext => cases h; exact hnext
  · cases h

/-- The phases that any number of digits leaves unchanged. -/
def Repeats (phase : NumberPhase) : Prop := phase = whole ∨ phase = fraction ∨ phase = exponent

/-- A phase that the first digit leads to takes all digits after it. -/
theorem leads_digits {phase next : NumberPhase} {digits : List Char} (h : Digits digits)
    (hrepeats : next.Repeats) (hnext : ∀ c : Char, c.isDigit → phase.next? c = some next) :
    Leads pass phase digits next := by
  obtain ⟨hfirst, hrest⟩ := h
  refine .cons (pass_of_next? (hnext _ hfirst)) (.stay fun d hd => pass_of_next? ?_)
  rcases hrepeats with rfl | rfl | rfl <;> simp only [next?, if_pos (hrest d hd)]

/-- The whole digits of a number end it, or a point or an exponent follows. -/
theorem leads_whole {text : List Char} (h : Whole text) :
    ∃ phase, Leads pass minus text phase ∧ (phase = zero ∨ phase = whole) := by
  cases h with
  | zero => exact ⟨zero, .single rfl, .inl rfl⟩
  | digits hdigit hzero hrest =>
    refine ⟨whole, .cons (m := whole) ?_ (.stay fun d hd => ?_), .inr rfl⟩
    · exact pass_of_next? (by simp only [next?, if_neg hzero, if_pos hdigit])
    · exact pass_of_next? (by simp only [next?, if_pos (hrest d hd)])

theorem leads_fraction {phase : NumberPhase} {text : List Char} (h : Fraction text)
    (hphase : phase = zero ∨ phase = whole) :
    ∃ next, Leads pass phase text next ∧ (next = zero ∨ next = whole ∨ next = fraction) := by
  cases h with
  | none => exact ⟨phase, .nil, hphase.imp_right .inl⟩
  | digits hdigits =>
    refine ⟨fraction, .cons (m := point) (pass_of_next? ?_) ?_, .inr (.inr rfl)⟩
    · rcases hphase with rfl | rfl <;> rfl
    · exact leads_digits hdigits (.inr (.inl rfl)) fun c hc => if_pos hc

theorem leads_exponent {phase : NumberPhase} {text : List Char} (h : Exponent text)
    (hphase : phase = zero ∨ phase = whole ∨ phase = fraction) :
    ∃ next, Leads pass phase text next ∧ next.complete = true := by
  cases h with
  | none =>
    refine ⟨phase, .nil, ?_⟩
    rcases hphase with rfl | rfl | rfl <;> rfl
  | @digits mark sign digits hmark hsign hdigits =>
    refine ⟨exponent, .cons (m := NumberPhase.mark) (pass_of_next? ?_) ?_, rfl⟩
    · rcases hmark with rfl | rfl <;> rcases hphase with rfl | rfl | rfl <;> rfl
    · rcases hsign with rfl | hsign
      · exact leads_digits hdigits (.inr (.inr rfl)) fun c hc => if_pos hc
      · refine Leads.append (m := markSign) ?_ ?_
        · rcases hsign with rfl | rfl <;> exact .single rfl
        · exact leads_digits hdigits (.inr (.inr rfl)) fun c hc => if_pos hc

/-- A number goes on from its first character to a phase that may end it. -/
theorem leads_numeral {text : List Char} (h : Numeral text) :
    ∃ c rest first last, text = c :: rest ∧ start? c = some first ∧
      Leads pass first rest last ∧ last.complete = true := by
  obtain @⟨_, wholeText, fractionText, exponentText, hsign, hwhole, hfraction, hexponent⟩ := h
  obtain ⟨_, hafterWhole, hphase⟩ := leads_whole hwhole
  obtain ⟨_, hafterFraction, hphase⟩ := leads_fraction hfraction hphase
  obtain ⟨last, hlast, hcomplete⟩ := leads_exponent hexponent hphase
  have hunsigned := hafterWhole.append (hafterFraction.append hlast)
  rcases hsign with rfl | rfl
  · -- A number without a sign begins as one does after its sign.
    rw [List.nil_append]
    generalize wholeText ++ (fractionText ++ exponentText) = text at hunsigned ⊢
    cases hunsigned with
    | nil => cases hcomplete
    | @cons _ first _ c rest hfirst hrest =>
      have hnext := next?_of_pass hfirst
      have hminus : c ≠ '-' := by rintro rfl; cases hnext
      have hstart : start? c = some first := by rw [start?, if_neg hminus]; exact hnext
      exact ⟨c, rest, first, last, rfl, hstart, hrest, hcomplete⟩
  · exact ⟨'-', _, minus, last, rfl, rfl, hunsigned, hcomplete⟩

/-- The first character of a number begins nothing else. -/
theorem ne_of_start? {first : NumberPhase} {c d : Char} (h : start? c = some first)
    (hd : start? d = none) : c ≠ d := by
  rintro rfl
  rw [h] at hd
  cases hd

theorem wordRest?_of_start? {first : NumberPhase} {c : Char} (h : start? c = some first) :
    wordRest? c = none := by
  unfold wordRest?
  split
  · exact absurd rfl (ne_of_start? h (d := 'n') rfl)
  · exact absurd rfl (ne_of_start? h (d := 't') rfl)
  · exact absurd rfl (ne_of_start? h (d := 'f') rfl)
  · rfl

theorem isSpace_of_start? {first : NumberPhase} {c : Char} (h : start? c = some first) :
    isSpace c = false := by
  rw [← Bool.not_eq_true, isSpace_iff]
  rintro (rfl | rfl | rfl | rfl) <;> cases h

end NumberPhase

/-! ## The outcome of a character -/

namespace Bracket

/-- The character that opens a list or an object. -/
def opening : Bracket → Char
  | list => '['
  | object => '\x7b'

/-- The character that closes a list or an object. -/
def closing : Bracket → Char
  | list => ']'
  | object => '\x7d'

/-- What is read after the opening character. -/
def first : Bracket → SkipPhase
  | list => .firstItem
  | object => .firstKey

/-- What is read after a comma. -/
def again : Bracket → SkipPhase
  | list => .value
  | object => .nextKey

end Bracket

namespace Skip

variable {enclosing : List Bracket} {bracket : Bracket} {phase : SkipPhase} {skip next : Skip}
  {c : Char}

/-- A character inside a value; the value may be over before it. -/
def pass (skip : Skip) (c : Char) : Step Skip Unit :=
  let settled := skip.settle c
  if settled.isOver then .done ()
  else
    match settled.advance c with
    | .ok next => .more next
    | .error e => .error e

theorem isOver_of_ne_after (h : phase ≠ .after) : (Skip.mk enclosing phase).isOver = false := by
  unfold isOver
  split
  · next _ hafter => exact absurd hafter h
  · rfl

/-- Where nothing has to be settled first, a character is taken as it is. -/
theorem pass_eq (hnumber : ∀ inner, phase ≠ .number inner)
    (hover : (Skip.mk enclosing phase).isOver = false) :
    (Skip.mk enclosing phase).pass c =
      match (Skip.mk enclosing phase).advance c with
      | .ok next => .more next
      | .error e => .error e := by
  have hsettle : (Skip.mk enclosing phase).settle c = ⟨enclosing, phase⟩ := by
    unfold settle
    split
    · next inner hphase => exact absurd hphase (hnumber inner)
    · rfl
  simp only [pass, hsettle, hover, Bool.false_eq_true, if_false]

theorem pass_of_advance (hnumber : ∀ inner, phase ≠ .number inner)
    (hover : (Skip.mk enclosing phase).isOver = false)
    (h : (Skip.mk enclosing phase).advance c = .ok next) :
    (Skip.mk enclosing phase).pass c = .more next := by
  rw [pass_eq hnumber hover, h]

/-- Before a value or a key, and after one inside brackets, blanks change nothing. -/
def Waits (skip : Skip) : Prop :=
  match skip.phase with
  | .value | .firstItem | .firstKey | .nextKey | .colon => True
  | .after => skip.enclosing ≠ []
  | _ => False

theorem pass_space (h : skip.Waits) (hc : isSpace c = true) : skip.pass c = .more skip := by
  obtain ⟨enclosing, phase⟩ := skip
  cases phase with
  | value | firstItem | firstKey | nextKey | colon =>
    exact pass_of_advance nofun (isOver_of_ne_after nofun) (if_pos hc)
  | after =>
    obtain ⟨bracket, rest, rfl⟩ := List.exists_cons_of_ne_nil h
    exact pass_of_advance nofun rfl (if_pos hc)
  | key | text | word | number => exact h.elim

theorem leads_blank (h : skip.Waits) {blank : List Char} (hblank : Blank blank) :
    Leads pass skip blank skip :=
  .blank (fun _ => pass_space h) hblank

/-! ## After a value -/

/-- The value is over, or it is a number that may end here. -/
def Closed (enclosing : List Bracket) (skip : Skip) : Prop :=
  skip = ⟨enclosing, .after⟩ ∨ ∃ phase, skip = ⟨enclosing, .number phase⟩ ∧ phase.complete = true

/-- The characters that can follow a value. -/
def Follows (c : Char) : Prop := isSpace c = true ∨ c = ',' ∨ c = ']' ∨ c = '\x7d'

/-- A number that may end does so before every character that can follow it. -/
theorem endsBefore_of_follows {phase : NumberPhase} (h : phase.complete = true)
    (hc : Follows c) : phase.endsBefore c = true := by
  rw [Follows, isSpace_iff] at hc
  cases phase with
  | minus | point | mark | markSign => cases h
  | zero | whole | fraction | exponent =>
    rcases hc with (rfl | rfl | rfl | rfl) | rfl | rfl | rfl <;> rfl

/-- What follows a value does not see whether the value was a number. -/
theorem pass_of_closed (h : Closed enclosing skip) (hc : Follows c) :
    skip.pass c = (Skip.mk enclosing .after).pass c := by
  have hsettle : skip.settle c = ⟨enclosing, .after⟩ := by
    obtain rfl | ⟨phase, rfl, hcomplete⟩ := h
    · rfl
    · exact if_pos (endsBefore_of_follows hcomplete hc)
  simp only [pass, hsettle]
  rfl

theorem pass_comma (h : Closed (bracket :: enclosing) skip) :
    skip.pass ',' = .more ⟨bracket :: enclosing, bracket.again⟩ := by
  rw [pass_of_closed h (.inr (.inl rfl))]
  cases bracket <;> rfl

theorem pass_closing (h : Closed (bracket :: enclosing) skip) :
    skip.pass bracket.closing = .more ⟨enclosing, .after⟩ := by
  have hc : Follows bracket.closing := by cases bracket <;> simp [Follows, Bracket.closing]
  rw [pass_of_closed h hc]
  cases bracket <;> rfl

/-- The text is led through, and leaves open what was open before it and nothing else. -/
def Passes (skip : Skip) (text : List Char) : Prop :=
  ∃ last, Leads pass skip text last ∧ Closed skip.enclosing last

/-- Blanks after a value inside brackets leave it closed. -/
theorem leads_after (h : Closed (bracket :: enclosing) skip) {blank : List Char}
    (hblank : Blank blank) :
    ∃ last, Leads pass skip blank last ∧ Closed (bracket :: enclosing) last := by
  have hwaits : (Skip.mk (bracket :: enclosing) .after).Waits := List.cons_ne_nil _ _
  have hfirst : ∀ c, isSpace c = true → skip.pass c = .more ⟨bracket :: enclosing, .after⟩ :=
    fun c hc => (pass_of_closed h (.inl hc)).trans (pass_space hwaits hc)
  obtain ⟨last, hlast, rfl | rfl⟩ := Leads.blank_to hfirst (fun c => pass_space hwaits) hblank
  · exact ⟨last, hlast, h⟩
  · exact ⟨_, hlast, .inl rfl⟩

/-! ## Values without parts -/

/-- The phases before a value. -/
def BeforeValue (phase : SkipPhase) : Prop := phase = .value ∨ phase = .firstItem

/-- The phases before a key. -/
def BeforeKey (phase : SkipPhase) : Prop := phase = .firstKey ∨ phase = .nextKey

theorem pass_enter (h : BeforeValue phase) (hspace : isSpace c = false) (hclose : c ≠ ']')
    (henter : (Skip.mk enclosing phase).enter c = .ok next) :
    (Skip.mk enclosing phase).pass c = .more next := by
  have hspace : ¬ isSpace c = true := by rw [hspace]; exact Bool.false_ne_true
  rcases h with rfl | rfl
  · exact pass_of_advance nofun (isOver_of_ne_after nofun) ((if_neg hspace).trans henter)
  · exact pass_of_advance nofun (isOver_of_ne_after nofun)
      ((if_neg hspace).trans ((if_neg hclose).trans henter))

/-- The letters of a word lead past it. -/
theorem leads_letters (d : Char) (rest : List Char) :
    Leads pass ⟨enclosing, .word (d :: rest)⟩ (d :: rest) ⟨enclosing, .after⟩ := by
  induction rest generalizing d with
  | nil =>
    exact .single (pass_of_advance nofun (isOver_of_ne_after nofun) (if_neg fun h => h rfl))
  | cons e rest ih =>
    refine .cons (m := ⟨enclosing, .word (e :: rest)⟩) ?_ (ih e)
    exact pass_of_advance nofun (isOver_of_ne_after nofun) (if_neg fun h => h rfl)

theorem leads_word (h : BeforeValue phase) {d : Char} {rest : List Char}
    (hspace : isSpace c = false) (hclose : c ≠ ']')
    (henter : (Skip.mk enclosing phase).enter c = .ok ⟨enclosing, .word (d :: rest)⟩) :
    Leads pass ⟨enclosing, phase⟩ (c :: d :: rest) ⟨enclosing, .after⟩ :=
  .cons (pass_enter h hspace hclose henter) (leads_letters d rest)

theorem enter_of_start? {first : NumberPhase} (h : NumberPhase.start? c = some first) :
    (Skip.mk enclosing phase).enter c = .ok ⟨enclosing, .number first⟩ := by
  have hother {d : Char} : NumberPhase.start? d = none → c ≠ d := NumberPhase.ne_of_start? h
  rw [enter, if_neg (hother rfl), if_neg (hother rfl), if_neg (hother rfl),
    NumberPhase.wordRest?_of_start? h, h]
  rfl

/-- A number may end where its text does. -/
theorem passes_number (h : BeforeValue phase) {text : List Char} (hnumeral : Numeral text) :
    Passes ⟨enclosing, phase⟩ text := by
  obtain ⟨c, rest, first, last, rfl, hstart, hcourse, hcomplete⟩ :=
    NumberPhase.leads_numeral hnumeral
  have hfirst : (Skip.mk enclosing phase).pass c = .more ⟨enclosing, .number first⟩ :=
    pass_enter h (NumberPhase.isSpace_of_start? hstart) (NumberPhase.ne_of_start? hstart rfl)
      (enter_of_start? hstart)
  refine ⟨⟨enclosing, .number last⟩, .cons hfirst ?_, .inr ⟨last, rfl, hcomplete⟩⟩
  refine hcourse.along (fun inner => Skip.mk enclosing (.number inner)) fun p q d hd => ?_
  have hnext := NumberPhase.next?_of_pass hd
  have hends : p.endsBefore d = false := by
    simp only [NumberPhase.endsBefore, hnext, Option.isNone_some, Bool.and_false, Bool.false_and]
  have hover : (Skip.mk enclosing (.number p)).isOver = false := isOver_of_ne_after nofun
  simp only [pass, settle, hends, Bool.false_eq_true, if_false, hover, advance, hnext]
  rfl

/-- A character of a text that is skipped is left to the reader of texts. -/
theorem pass_literal (inside : Literal → SkipPhase) {onDone : SkipPhase} {literal : Literal}
    (hnumber : ∀ inner, inside literal ≠ .number inner) (hafter : inside literal ≠ .after)
    (hadvance : (Skip.mk enclosing (inside literal)).advance c =
      (Skip.mk enclosing (inside literal)).literal literal c inside onDone) :
    (Skip.mk enclosing (inside literal)).pass c =
      (literal.step .skip c).within (fun l => ⟨enclosing, inside l⟩)
        fun _ => .more ⟨enclosing, onDone⟩ := by
  rw [pass_eq hnumber (isOver_of_ne_after hafter), hadvance, Skip.literal]
  rcases literal.step .skip c with e | (l | given) <;> rfl

theorem leads_text (h : BeforeValue phase) {body : List Char} (hbody : Body body) :
    Leads pass ⟨enclosing, phase⟩ (inQuotes body) ⟨enclosing, .after⟩ := by
  obtain ⟨given, hgiven⟩ := reads_skip hbody
  refine .cons (m := ⟨enclosing, .text {}⟩) (pass_enter h rfl (by decide) rfl) ?_
  exact hgiven.leads (fun l => Skip.mk enclosing (.text l))
    (fun l d => pass_literal .text nofun nofun rfl) rfl

theorem leads_key (h : BeforeKey phase) {body : List Char} (hbody : Body body) :
    Leads pass ⟨enclosing, phase⟩ (inQuotes body) ⟨enclosing, .colon⟩ := by
  obtain ⟨given, hgiven⟩ := reads_skip hbody
  refine .cons (m := ⟨enclosing, .key {}⟩) ?_ ?_
  · rcases h with rfl | rfl <;> exact pass_of_advance nofun (isOver_of_ne_after nofun) rfl
  · exact hgiven.leads (fun l => Skip.mk enclosing (.key l))
      (fun l d => pass_literal .key nofun nofun rfl) rfl

/-! ## Values with parts -/

theorem pass_opening (h : BeforeValue phase) :
    (Skip.mk enclosing phase).pass bracket.opening =
      .more ⟨bracket :: enclosing, bracket.first⟩ := by
  cases bracket <;> exact pass_enter h rfl (by decide) rfl

/-- A list or an object that is empty but for blanks. -/
theorem leads_empty (bracket : Bracket) (h : BeforeValue phase) {blank : List Char}
    (hblank : Blank blank) :
    Leads pass ⟨enclosing, phase⟩ (bracket.opening :: blank ++ [bracket.closing])
      ⟨enclosing, .after⟩ := by
  refine .cons (pass_opening h) ((leads_blank ?_ hblank).append (.single ?_))
  · cases bracket <;> trivial
  · cases bracket <;> exact pass_of_advance nofun (isOver_of_ne_after nofun) rfl

/-- A list or an object with parts inside. -/
theorem leads_full (bracket : Bracket) (h : BeforeValue phase) {inner : List Char}
    (hinner : Passes ⟨bracket :: enclosing, bracket.first⟩ inner) :
    Leads pass ⟨enclosing, phase⟩ (bracket.opening :: inner ++ [bracket.closing])
      ⟨enclosing, .after⟩ := by
  obtain ⟨last, hlast, hclosed⟩ := hinner
  exact .cons (pass_opening h) (hlast.append (.single (pass_closing hclosed)))

theorem waits_of_beforeValue (h : BeforeValue phase) : (Skip.mk enclosing phase).Waits := by
  rcases h with rfl | rfl <;> trivial

theorem waits_of_beforeKey (h : BeforeKey phase) : (Skip.mk enclosing phase).Waits := by
  rcases h with rfl | rfl <;> trivial

theorem passes_padded (h : BeforeValue phase) {before value after : List Char}
    (hbefore : Blank before) (hvalue : Passes ⟨bracket :: enclosing, phase⟩ value)
    (hafter : Blank after) : Passes ⟨bracket :: enclosing, phase⟩ (before ++ value ++ after) := by
  obtain ⟨_, hvalue, hclosed⟩ := hvalue
  obtain ⟨last, hafter, hclosed⟩ := leads_after hclosed hafter
  have hwaits : (Skip.mk (bracket :: enclosing) phase).Waits := waits_of_beforeValue h
  exact ⟨last, ((leads_blank hwaits hbefore).append hvalue).append hafter, hclosed⟩

/-- Parts follow each other with a comma between them. -/
theorem passes_comma {text rest : List Char} (h : Passes ⟨bracket :: enclosing, phase⟩ text)
    (hrest : Passes ⟨bracket :: enclosing, bracket.again⟩ rest) :
    Passes ⟨bracket :: enclosing, phase⟩ (text ++ ',' :: rest) := by
  obtain ⟨_, htext, hclosed⟩ := h
  obtain ⟨last, hrest, hlast⟩ := hrest
  exact ⟨last, htext.append (.cons (pass_comma hclosed) hrest), hlast⟩

theorem passes_entry (h : BeforeKey phase) {before key after value : List Char}
    (hbefore : Blank before) (hkey : Body key) (hafter : Blank after)
    (hvalue : Passes ⟨.object :: enclosing, .value⟩ value) :
    Passes ⟨.object :: enclosing, phase⟩ (before ++ inQuotes key ++ after ++ ':' :: value) := by
  obtain ⟨last, hvalue, hclosed⟩ := hvalue
  have hwaits : (Skip.mk (.object :: enclosing) phase).Waits := waits_of_beforeKey h
  have hkey := (leads_blank hwaits hbefore).append (leads_key h hkey)
  have hwaits : (Skip.mk (.object :: enclosing) .colon).Waits := trivial
  have hcolon : (Skip.mk (.object :: enclosing) .colon).pass ':' =
      .more ⟨.object :: enclosing, .value⟩ := rfl
  exact ⟨last, (hkey.append (leads_blank hwaits hafter)).append (.cons hcolon hvalue), hclosed⟩

/-- Where the text of a part may begin. -/
inductive Begins : Part → Skip → Prop
  | value {enclosing : List Bracket} {phase : SkipPhase} :
    BeforeValue phase → Begins .value ⟨enclosing, phase⟩
  | padded {bracket : Bracket} {enclosing : List Bracket} {phase : SkipPhase} :
    BeforeValue phase → Begins .padded ⟨bracket :: enclosing, phase⟩
  | items {enclosing : List Bracket} {phase : SkipPhase} :
    BeforeValue phase → Begins .items ⟨.list :: enclosing, phase⟩
  | entry {enclosing : List Bracket} {phase : SkipPhase} :
    BeforeKey phase → Begins .entry ⟨.object :: enclosing, phase⟩
  | members {enclosing : List Bracket} {phase : SkipPhase} :
    BeforeKey phase → Begins .members ⟨.object :: enclosing, phase⟩

/-- Every part of a value's text is led through, and closes what it opens and nothing else. -/
theorem passes_phrase {part : Part} {text : List Char} (h : Phrase part text)
    (hbegins : Begins part skip) : Passes skip text := by
  induction h generalizing skip with
  | null | true | false =>
    obtain ⟨hphase⟩ := hbegins
    exact ⟨_, leads_word hphase rfl (by decide) rfl, .inl rfl⟩
  | number hnumeral =>
    obtain ⟨hphase⟩ := hbegins
    exact passes_number hphase hnumeral
  | text hbody =>
    obtain ⟨hphase⟩ := hbegins
    exact ⟨_, leads_text hphase hbody, .inl rfl⟩
  | emptyList hblank =>
    obtain ⟨hphase⟩ := hbegins
    exact ⟨_, leads_empty .list hphase hblank, .inl rfl⟩
  | emptyObject hblank =>
    obtain ⟨hphase⟩ := hbegins
    exact ⟨_, leads_empty .object hphase hblank, .inl rfl⟩
  | list _ ih =>
    obtain ⟨hphase⟩ := hbegins
    exact ⟨_, leads_full .list hphase (ih (.items (.inr rfl))), .inl rfl⟩
  | object _ ih =>
    obtain ⟨hphase⟩ := hbegins
    exact ⟨_, leads_full .object hphase (ih (.members (.inl rfl))), .inl rfl⟩
  | padded hbefore _ hafter ih =>
    cases hbegins with
    | padded hphase => exact passes_padded hphase hbefore (ih (.value hphase)) hafter
  | lastItem _ ih =>
    cases hbegins with
    | items hphase => exact ih (.padded hphase)
  | item _ _ ihItem ihItems =>
    cases hbegins with
    | items hphase => exact passes_comma (ihItem (.padded hphase)) (ihItems (.items (.inl rfl)))
  | entry hbefore hkey hafter _ ih =>
    cases hbegins with
    | entry hphase => exact passes_entry hphase hbefore hkey hafter (ih (.padded (.inl rfl)))
  | lastMember _ ih =>
    cases hbegins with
    | members hphase => exact ih (.entry hphase)
  | member _ _ ihEntry ihMembers =>
    cases hbegins with
    | members hphase =>
      exact passes_comma (ihEntry (.entry hphase)) (ihMembers (.members (.inr rfl)))

end Skip

end SidVoice.Json
