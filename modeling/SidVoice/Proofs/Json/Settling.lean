import SidVoice.Json.Name
import SidVoice.Proofs.Json.Skipping

/-!
# Any value where a name is wanted

The text of a value, whichever it is, either completes a name or stops the reader of names. It
never leaves the reader open, so what follows the value is not read as a part of it.

Only the first entry of an object has to be looked at, and of its value no more than the
beginning if that is a list or an object. So the values inside may be nested to any depth.
-/

namespace SidVoice.Json

open Grammar

/-- A value of the wrong kind that begins as a number is read as one. -/
theorem Misfit.start_of_start? {first : NumberPhase} {c : Char}
    (h : NumberPhase.start? c = some first) (wanted : String) :
    Misfit.start wanted c = .ok (.number first [c]) := by
  have hother {d : Char} : NumberPhase.start? d = none → c ≠ d := NumberPhase.ne_of_start? h
  rw [Misfit.start, if_neg (hother rfl), if_neg (hother rfl), if_neg (hother rfl),
    NumberPhase.wordRest?_of_start? h, h]

/-- After a value with blanks behind it there is still a character that can follow it. -/
theorem exists_follows {blank : List Char} {c : Char} (hblank : Blank blank)
    (hc : Skip.Follows c) (rest : List Char) :
    ∃ d tail, blank ++ c :: rest = d :: tail ∧ Skip.Follows d := by
  cases blank with
  | nil => exact ⟨c, rest, rfl, hc⟩
  | cons d blank =>
    exact ⟨d, blank ++ c :: rest, rfl, .inl (isSpace_of_blank hblank List.mem_cons_self)⟩

section Name

variable {α : Type} (names : Names α) {text : List Char}

/-- A number where null is wanted is taken to its end. -/
theorem leads_misfitNumber {first last : NumberPhase} (h : Leads NumberPhase.pass first text last)
    (reversed : List Char) :
    ∃ seen, Leads (NameState.step names) (.misfit (.number first reversed)) text
      (.misfit (.number last seen)) := by
  induction h generalizing reversed with
  | nil => exact ⟨reversed, .nil⟩
  | @cons phase next last c text hc _ ih =>
    obtain ⟨seen, hseen⟩ := ih (c :: reversed)
    have hnext : NameState.step names (.misfit (.number phase reversed)) c =
        .more (.misfit (.number next (c :: reversed))) := by
      simp only [NameState.step, Misfit.step, NumberPhase.next?_of_pass hc, NameState.ofMisfit]
    exact ⟨seen, .cons hnext hseen⟩

/-- A number where null is wanted is an error at the character after it. -/
theorem step_misfitNumber {phase : NumberPhase} (h : phase.complete = true) {c : Char}
    (hc : Skip.Follows c) (reversed : List Char) :
    ∃ e, NameState.step names (.misfit (.number phase reversed)) c = .error e := by
  have hends := Skip.endsBefore_of_follows h hc
  have hnone : phase.next? c = none := by
    rw [NumberPhase.endsBefore, Bool.and_eq_true, Bool.and_eq_true] at hends
    exact Option.isNone_iff_eq_none.mp hends.1.2
  refine ⟨Misfit.endNumber NameState.wanted reversed, ?_⟩
  simp only [NameState.step, Misfit.step, hnone, hends, if_true, NameState.ofMisfit]

/-- A text where null is wanted is decoded to its end and rejected. -/
theorem step_misfitText (literal : Literal) (c : Char) :
    NameState.step names (.misfit (.text literal)) c =
      (literal.step .decode c).within (fun l => .misfit (.text l)) fun given =>
        .rejected (.wrongKind (.text given) NameState.wanted) := by
  simp only [NameState.step, Misfit.step]
  rcases literal.step .decode c with e | (l | given) <;> rfl

/-- After a name as a key null completes its value. Any other value is an error, at the latest at
the character after it. -/
theorem null_or_stops (value : α) (h : Phrase .value text) :
    Leads (NameState.step names) (.unit value) text (.closing value) ∨
      ∀ c rest, Skip.Follows c →
        ∃ e, Stops (NameState.step names) (.unit value) (text ++ c :: rest) e := by
  cases h with
  | null => exact .inl (.cons rfl (.cons rfl (.cons rfl (.single rfl))))
  | true => exact .inr fun c rest _ => ⟨_, .cons rfl (.cons rfl (.cons rfl (.last rfl)))⟩
  | false =>
    exact .inr fun c rest _ => ⟨_, .cons rfl (.cons rfl (.cons rfl (.cons rfl (.last rfl))))⟩
  | number hnumeral =>
    refine .inr fun d rest hd => ?_
    obtain ⟨c, tail, first, last, rfl, hstart, hcourse, hcomplete⟩ :=
      NumberPhase.leads_numeral hnumeral
    have hspace : ¬ isSpace c = true :=
      Bool.eq_false_iff.mp (NumberPhase.isSpace_of_start? hstart)
    have hfirst : NameState.step names (.unit value) c = .more (.misfit (.number first [c])) := by
      rw [NameState.step, if_neg hspace, if_neg (NumberPhase.ne_of_start? hstart rfl),
        Misfit.start_of_start? hstart, NameState.ofMisfit]
    obtain ⟨seen, hseen⟩ := leads_misfitNumber names hcourse [c]
    obtain ⟨e, he⟩ := step_misfitNumber names hcomplete hd seen
    exact ⟨e, (Leads.cons hfirst hseen).stops (.last he)⟩
  | text hbody =>
    refine .inr fun c rest _ => ?_
    obtain ⟨outcome, hsettles⟩ := settles_decode hbody (atRest_between [])
    have htakes := hsettles.takes (fun l => NameState.misfit (.text l)) (step_misfitText names)
    cases outcome <;> exact ⟨_, (Stops.cons rfl htakes).append (c :: rest)⟩
  | emptyList | list | emptyObject | object =>
    exact .inr fun c rest _ => ⟨_, .last rfl⟩

/-- A complete name is known, or it stops the reader. -/
theorem bind_named_cases (onValue : α → Step (NameState α) α)
    (given : Except ReadError String) :
    (∃ value, given.bind (NameState.named names onValue) = onValue value) ∨
      ∃ e, given.bind (NameState.named names onValue) = .error e := by
  cases given with
  | error e => exact .inr ⟨e, rfl⟩
  | ok given =>
    change (∃ value, NameState.named names onValue given = onValue value) ∨
      ∃ e, NameState.named names onValue given = .error e
    rw [NameState.named]
    cases names.find? given with
    | some value => exact .inl ⟨value, rfl⟩
    | none => exact .inr ⟨_, rfl⟩

/-- A name as a text is read, or it stops the reader. -/
theorem settles_nameText {body : List Char} (h : Body body) :
    ∃ outcome, Settles (NameState.step names) .start (inQuotes body) outcome := by
  obtain ⟨given, hgiven⟩ := settles_decode h (atRest_between [])
  have htakes : Takes (NameState.step names) (.text (.between [])) (body ++ ['"']) _ :=
    hgiven.takes NameState.text fun _ _ => rfl
  have hquote : Leads (NameState.step names) .start ['"'] (.text (.between [])) := .single rfl
  refine (hquote.takes htakes).settles fun t ht => ?_
  obtain ⟨value, hvalue⟩ | ⟨e, he⟩ := bind_named_cases names .done given
  · rw [hvalue] at ht
    cases ht
  · rw [he] at ht
    cases ht

/-- A name as a key is known, or it stops the reader. -/
theorem leads_or_stops_nameKey {body : List Char} (h : Body body) :
    (∃ value, Leads (NameState.step names) .opened (inQuotes body) (.colon value)) ∨
      ∃ e, Stops (NameState.step names) .opened (inQuotes body) e := by
  obtain ⟨given, hgiven⟩ := settles_decode h (atRest_between [])
  have htakes : Takes (NameState.step names) (.key (.between [])) (body ++ ['"']) _ :=
    hgiven.takes NameState.key fun _ _ => rfl
  have hquote : Leads (NameState.step names) .opened ['"'] (.key (.between [])) := .single rfl
  have hkey := hquote.takes htakes
  obtain ⟨value, hvalue⟩ | ⟨e, he⟩ :=
    bind_named_cases names (fun value => .more (.colon value)) given
  · rw [hvalue] at hkey
    exact .inl ⟨value, hkey⟩
  · rw [he] at hkey
    exact .inr ⟨e, hkey⟩

/-- After a name as a key, the object is decided by the end of its first entry. -/
theorem settles_unit (value : α) (h : Phrase .padded text) {c : Char} {rest : List Char}
    (hc : c = ',' ∨ c = '\x7d' ∧ rest = []) :
    ∃ outcome, Settles (NameState.step names) (.unit value) (text ++ c :: rest) outcome := by
  cases h with
  | @padded space inner blank hspace hinner hblank =>
    have hunit : Leads (NameState.step names) (.unit value) space (.unit value) :=
      .blank (fun _ hc => if_pos hc) hspace
    have hclosing : Leads (NameState.step names) (.closing value) blank (.closing value) :=
      .blank (fun _ hc => if_pos hc) hblank
    rw [List.append_assoc, List.append_assoc]
    obtain hnull | hstops := null_or_stops names value hinner
    · have hcourse := (hunit.append hnull).append hclosing
      rw [← List.append_assoc, ← List.append_assoc]
      obtain rfl | ⟨rfl, rfl⟩ := hc
      · exact ⟨_, .stopped (hcourse.stops (.last rfl))⟩
      · exact ⟨_, .read (hcourse.reads (.last rfl))⟩
    · have hfollows : Skip.Follows c := .inr (hc.imp_right fun hclose => .inr hclose.1)
      obtain ⟨d, tail, htail, hd⟩ := exists_follows hblank hfollows rest
      obtain ⟨e, he⟩ := hstops d tail hd
      rw [htail]
      exact ⟨_, .stopped (hunit.stops he)⟩

/-- The first entry of an object where a name is wanted decides it, whatever the others are. -/
theorem settles_entry {entry : List Char} (h : Phrase .entry entry) {c : Char} {rest : List Char}
    (hc : c = ',' ∨ c = '\x7d' ∧ rest = []) :
    ∃ outcome, Settles (NameState.step names) .opened (entry ++ c :: rest) outcome := by
  cases h with
  | @entry before body after value hbefore hbody hafter hvalue =>
    have hopened : Leads (NameState.step names) .opened before .opened :=
      .blank (fun _ hc => if_pos hc) hbefore
    rw [List.append_assoc, List.append_assoc]
    obtain ⟨name, hkey⟩ | ⟨e, hkey⟩ := leads_or_stops_nameKey names hbody
    · have hcolon : Leads (NameState.step names) (.colon name) after (.colon name) :=
        .blank (fun _ hc => if_pos hc) hafter
      have hmark : Leads (NameState.step names) (.colon name) [':'] (.unit name) := .single rfl
      obtain ⟨outcome, hsettles⟩ := settles_unit names name hvalue hc
      exact ⟨outcome, (hopened.append hkey).settles (hcolon.settles (hmark.settles hsettles))⟩
    · exact ⟨_, .stopped ((hopened.stops hkey).append _)⟩

/-- The text of a value settles the reader of names. -/
theorem settles_value (h : Phrase .value text) :
    ∃ outcome, Settles (NameState.step names) .start text outcome := by
  cases h with
  | null | true | false | emptyList | list => exact ⟨_, .stopped (.last rfl)⟩
  | number hnumeral =>
    obtain ⟨c, tail, first, last, rfl, hstart, -⟩ := NumberPhase.leads_numeral hnumeral
    have hspace : ¬ isSpace c = true :=
      Bool.eq_false_iff.mp (NumberPhase.isSpace_of_start? hstart)
    have hfirst : NameState.step names .start c = .malformed := by
      rw [NameState.step, if_neg hspace, if_neg (NumberPhase.ne_of_start? hstart rfl),
        if_neg (NumberPhase.ne_of_start? hstart rfl)]
    exact ⟨_, .stopped (.last hfirst)⟩
  | text hbody => exact settles_nameText names hbody
  | @emptyObject blank hblank =>
    have hopened : Leads (NameState.step names) .start ('\x7b' :: blank) .opened :=
      .cons (m := .opened) rfl (.blank (fun _ hc => if_pos hc) hblank)
    exact ⟨_, .stopped (hopened.stops (.last rfl))⟩
  | object hmembers =>
    have hopening : Leads (NameState.step names) .start ['\x7b'] .opened := .single rfl
    cases hmembers with
    | lastMember hentry =>
      obtain ⟨outcome, hsettles⟩ := settles_entry names hentry (.inr ⟨rfl, rfl⟩)
      exact ⟨outcome, hopening.settles hsettles⟩
    | @member entry members hentry _ =>
      have hcomma : (',' : Char) = ',' ∨ ',' = '\x7d' ∧ members ++ ['\x7d'] = [] := .inl rfl
      obtain ⟨outcome, hsettles⟩ := settles_entry names hentry hcomma
      rw [List.cons_append, List.append_assoc]
      exact ⟨outcome, hopening.settles hsettles⟩

/-- The text of a value with blanks around it settles the reader of names up to the blanks after
it. -/
theorem settles_padded (h : Phrase .padded text) :
    ∃ core blank outcome, text = core ++ blank ∧ Blank blank ∧
      Settles (NameState.step names) .start core outcome := by
  cases h with
  | @padded before core after hbefore hvalue hafter =>
    have hstart : Leads (NameState.step names) .start before .start :=
      .blank (fun _ hc => if_pos hc) hbefore
    obtain ⟨outcome, hsettles⟩ := settles_value names hvalue
    exact ⟨before ++ core, after, outcome, rfl, hafter, hstart.settles hsettles⟩

/-- The text of a value with blanks around it is read as a name by the reader that uses the reader
of names for it. -/
theorem takes_padded {τ β : Type} {outer : τ → Char → Step τ β} (f : NameState α → τ)
    {next : α → τ} (htext : Phrase .padded text)
    (h : ∀ s c, outer (f s) c =
      (NameState.step names s c).within f fun value => .more (next value))
    (hblank : ∀ value c, isSpace c = true → outer (next value) c = .more (next value)) :
    Takes outer (f .start) text
      (((nameReader names).read text).bind fun value => Step.more (next value)) := by
  obtain ⟨core, blank, outcome, rfl, hafter, hsettles⟩ := settles_padded names htext
  have hread : (nameReader names).read (core ++ blank) = outcome :=
    Reader.read_of_settles hsettles hafter
  rw [hread]
  exact (hsettles.takes f h).bind fun value => Leads.blank (hblank value) hafter

end Name

end SidVoice.Json
