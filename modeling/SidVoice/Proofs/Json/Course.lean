import SidVoice.Json.Literal
import SidVoice.Proofs.Json.Grammar

/-!
# The course of a reader

What a text does to a reader: it leads from one state to another, it completes a value with its
last character, or it stops the reader at an error. A reader that uses another one for a part of its
text follows its course, so each reader is looked at once.

Texts between quotes come first. Decoded, they leave the characters they stand for, and a lone
surrogate stops the reader; skipped, only their end matters.
-/

namespace SidVoice.Json

open Grammar

section Course

variable {σ τ α β : Type}

/-- The text leads from one state to another, and the value is not complete. -/
inductive Leads (step : σ → Char → Step σ α) : σ → List Char → σ → Prop
  | nil {s : σ} : Leads step s [] s
  | cons {s m t : σ} {c : Char} {text : List Char} :
    step s c = .more m → Leads step m text t → Leads step s (c :: text) t

/-- The last character of the text completes a value, and none before it does. -/
inductive Reads (step : σ → Char → Step σ α) : σ → List Char → α → Prop
  | last {s : σ} {c : Char} {a : α} : step s c = .done a → Reads step s [c] a
  | cons {s m : σ} {c : Char} {text : List Char} {a : α} :
    step s c = .more m → Reads step m text a → Reads step s (c :: text) a

/-- A character of the text is an error, and what comes after it is not read. -/
inductive Stops (step : σ → Char → Step σ α) : σ → List Char → ReadError → Prop
  | last {s : σ} {c : Char} {rest : List Char} {e : ReadError} :
    step s c = .error e → Stops step s (c :: rest) e
  | cons {s m : σ} {c : Char} {text : List Char} {e : ReadError} :
    step s c = .more m → Stops step m text e → Stops step s (c :: text) e

/-- What the text does to the reader: it leads on, completes a value or stops the reader. -/
def Takes (step : σ → Char → Step σ α) (s : σ) (text : List Char) : Step σ α → Prop
  | .ok (.more t) => Leads step s text t
  | .ok (.done a) => Reads step s text a
  | .error e => Stops step s text e

/-- The text is not too short: a value is complete with its last character, or an error stops the
reader on the way. -/
inductive Settles (step : σ → Char → Step σ α) (s : σ) (text : List Char) :
    Except ReadError α → Prop
  | read {a : α} : Reads step s text a → Settles step s text (.ok a)
  | stopped {e : ReadError} : Stops step s text e → Settles step s text (.error e)

variable {step : σ → Char → Step σ α} {outer : τ → Char → Step τ β}
  {s m t : σ} {c : Char} {text rest : List Char} {a : α} {e : ReadError} {effect : Step σ α}
  {outcome : Except ReadError α}

namespace Takes

theorem single (h : step s c = effect) : Takes step s [c] effect := by
  rcases effect with e | (t | a)
  · exact Stops.last h
  · exact Leads.cons h .nil
  · exact Reads.last h

theorem cons (hc : step s c = .more m) (h : Takes step m text effect) :
    Takes step s (c :: text) effect := by
  rcases effect with e | (t | a)
  · exact Stops.cons hc h
  · exact Leads.cons hc h
  · exact Reads.cons hc h

/-- What a text does after a character that leads on is up to its rest. -/
theorem tail (h : Takes step s (c :: rest) effect) (hc : step s c = .more m) :
    Takes step m rest effect := by
  rcases effect with e | (t | a)
  · cases h with
    | last h => cases hc.symm.trans h
    | cons h hrest =>
      cases hc.symm.trans h
      exact hrest
  · cases h with
    | cons h hrest =>
      cases hc.symm.trans h
      exact hrest
  · cases h with
    | last h => cases hc.symm.trans h
    | cons h hrest =>
      cases hc.symm.trans h
      exact hrest

/-- Where the first character does the same, the text does. -/
theorem of_step_eq (h : Takes step s (c :: rest) effect) (hc : step t c = step s c) :
    Takes step t (c :: rest) effect := by
  rcases effect with e | (u | a)
  · cases h with
    | last h => exact Stops.last (hc.trans h)
    | cons h hrest => exact Stops.cons (hc.trans h) hrest
  · cases h with
    | cons h hrest => exact Leads.cons (hc.trans h) hrest
  · cases h with
    | last h => exact Reads.last (hc.trans h)
    | cons h hrest => exact Reads.cons (hc.trans h) hrest

/-- What a text does after a part that leads on is up to its rest. -/
theorem drop (h : Takes step s (text ++ rest) effect) (hleads : Leads step s text m) :
    Takes step m rest effect := by
  induction hleads with
  | nil => exact h
  | cons hc _ ih => exact ih (h.tail hc)

/-- A text that does not lead on settles the reader. -/
theorem settles (h : Takes step s text effect) (hmore : ∀ t, effect ≠ .more t) :
    ∃ outcome, Settles step s text outcome := by
  rcases effect with e | (t | a)
  · exact ⟨_, .stopped h⟩
  · exact absurd rfl (hmore t)
  · exact ⟨_, .read h⟩

end Takes

namespace Leads

theorem single (h : step s c = .more t) : Leads step s [c] t := .cons h .nil

/-- Texts in succession: the second one is read from where the first one leads. -/
theorem takes (h : Leads step s text m) (h' : Takes step m rest effect) :
    Takes step s (text ++ rest) effect := by
  induction h with
  | nil => exact h'
  | cons hc _ ih => exact .cons hc (ih h')

theorem append (h : Leads step s text m) (h' : Leads step m rest t) :
    Leads step s (text ++ rest) t :=
  h.takes (show Takes step m rest (.more t) from h')

theorem reads (h : Leads step s text m) (h' : Reads step m rest a) :
    Reads step s (text ++ rest) a :=
  h.takes (show Takes step m rest (.done a) from h')

theorem stops (h : Leads step s text m) (h' : Stops step m rest e) :
    Stops step s (text ++ rest) e :=
  h.takes (show Takes step m rest (.error e) from h')

theorem settles (h : Leads step s text m) (h' : Settles step m rest outcome) :
    Settles step s (text ++ rest) outcome := by
  cases h' with
  | read hreads => exact .read (h.reads hreads)
  | stopped hstops => exact .stopped (h.stops hstops)

/-- Characters that change nothing lead nowhere else. -/
theorem stay (h : ∀ c ∈ text, step s c = .more s) : Leads step s text s := by
  induction text with
  | nil => exact .nil
  | cons c text ih =>
    exact .cons (h c List.mem_cons_self) (ih fun d hd => h d (List.mem_cons_of_mem c hd))

/-- A reader follows the course of the one it uses. -/
theorem along (f : σ → τ) (h : ∀ s m c, step s c = .more m → outer (f s) c = .more (f m))
    (course : Leads step s text t) : Leads outer (f s) text (f t) := by
  induction course with
  | nil => exact .nil
  | cons hc _ ih => exact .cons (h _ _ _ hc) ih

end Leads

theorem Stops.append (h : Stops step s text e) (rest : List Char) :
    Stops step s (text ++ rest) e := by
  induction h with
  | last hc => exact .last hc
  | cons hc _ ih => exact .cons hc ih

/-- Texts in succession where the first one has an outcome: the second one is read from where a
value leads. -/
theorem Takes.bind {γ : Type} {r : Except ReadError γ} {next : γ → σ} {k : γ → Step σ α}
    (h : Takes step s text (r.bind fun value => Step.more (next value)))
    (h' : ∀ value, Takes step (next value) rest (k value)) :
    Takes step s (text ++ rest) (r.bind k) := by
  cases r with
  | ok value => exact Leads.takes h (h' value)
  | error e => exact Stops.append h rest

section Within

variable (f : σ → τ) {onDone : α → Step τ β}
  (h : ∀ s c, outer (f s) c = (step s c).within f onDone)

include h

/-- What a reader does when the one it uses has its value. -/
theorem Reads.takes (course : Reads step s text a) : Takes outer (f s) text (onDone a) := by
  induction course with
  | last hc => exact .single (by rw [h, hc, Step.within_done])
  | cons hc _ ih => exact .cons (by rw [h, hc, Step.within_more]) ih

/-- A reader goes on when the one it uses has its value. -/
theorem Reads.leads {next : τ} (course : Reads step s text a) (hdone : onDone a = .more next) :
    Leads outer (f s) text next := by
  have htakes := course.takes f h
  rw [hdone] at htakes
  exact htakes

/-- A reader is done when the one it uses has its value. -/
theorem Reads.within {b : β} (course : Reads step s text a) (hdone : onDone a = .done b) :
    Reads outer (f s) text b := by
  have htakes := course.takes f h
  rw [hdone] at htakes
  exact htakes

/-- A reader stops where the one it uses does. -/
theorem Stops.within (course : Stops step s text e) : Stops outer (f s) text e := by
  induction course with
  | last hc => exact .last (by rw [h, hc, Step.within_error])
  | cons hc _ ih => exact .cons (by rw [h, hc, Step.within_more]) ih

/-- A reader goes on with what the one it uses has settled. -/
theorem Settles.takes (course : Settles step s text outcome) :
    Takes outer (f s) text (outcome.bind onDone) := by
  cases course with
  | @read a hreads =>
    have htakes : Takes outer (f s) text (onDone a) := hreads.takes f h
    exact htakes
  | stopped hstops => exact hstops.within f h

end Within

theorem isSpace_iff {c : Char} :
    isSpace c = true ↔ c = ' ' ∨ c = '\t' ∨ c = '\n' ∨ c = '\r' := by
  simp only [isSpace, Bool.or_eq_true, beq_iff_eq, or_assoc]

theorem isSpace_of_blank {blank : List Char} (h : Blank blank) {c : Char} (hc : c ∈ blank) :
    isSpace c = true :=
  isSpace_iff.mpr (h c hc)

/-- A state that blanks do not change stays through a run of them. -/
theorem Leads.blank (h : ∀ c, isSpace c = true → step s c = .more s) {blank : List Char}
    (hblank : Blank blank) : Leads step s blank s :=
  .stay fun c hc => h c (isSpace_of_blank hblank hc)

/-- Blanks lead where the first of them leads, if the others change nothing there. -/
theorem Leads.blank_to (hfirst : ∀ c, isSpace c = true → step s c = .more t)
    (hstay : ∀ c, isSpace c = true → step t c = .more t) {blank : List Char}
    (hblank : Blank blank) : ∃ last, Leads step s blank last ∧ (last = s ∨ last = t) := by
  cases blank with
  | nil => exact ⟨s, .nil, .inl rfl⟩
  | cons c blank =>
    have hspace := isSpace_of_blank hblank List.mem_cons_self
    exact ⟨t, .cons (hfirst c hspace) (.blank hstay hblank.tail), .inr rfl⟩

namespace Reader

variable {reader : Reader σ α}

theorem run_of_reads (h : Reads reader.step s text a) :
    reader.run (.more s) text = .ok (.done a) := by
  induction h with
  | last hc => rw [run, feed, hc]; rfl
  | cons hc _ ih => rw [run, feed, hc]; exact ih

/-- Blanks may follow a value. -/
theorem run_blank {blank : List Char} (h : Blank blank) :
    reader.run (.done a) blank = .ok (.done a) := by
  induction blank with
  | nil => rfl
  | cons c blank ih =>
    rw [run, feed, if_pos (isSpace_of_blank h List.mem_cons_self)]
    exact ih h.tail

/-- A reader accepts the text of a value with blanks after it. -/
theorem read_of_reads (h : Reads reader.step reader.start text a) {blank : List Char}
    (hblank : Blank blank) : reader.read (text ++ blank) = .ok a := by
  rw [read, run_append, run_of_reads h]
  simp only [run_blank hblank, conclude]

theorem run_of_stops {e : ReadError} (h : Stops reader.step s text e) :
    reader.run (.more s) text = .error e := by
  induction h with
  | last hc => rw [run, feed, hc]
  | cons hc _ ih => rw [run, feed, hc]; exact ih

/-- A reader reports the error at which it stops. -/
theorem read_of_stops {e : ReadError} (h : Stops reader.step reader.start text e) :
    reader.read text = .error e := by
  rw [read, run_of_stops h]

/-- A text that has settled the reader is read as that, whether or not blanks follow. -/
theorem read_of_settles {outcome : Except ReadError α}
    (h : Settles reader.step reader.start text outcome) {blank : List Char}
    (hblank : Blank blank) : reader.read (text ++ blank) = outcome := by
  cases h with
  | read hreads => exact read_of_reads hreads hblank
  | stopped hstops => exact read_of_stops (hstops.append blank)

end Reader

end Course

/-! ## Texts between quotes -/

section Literal

variable {purpose : Purpose} {reversed : List Char}

/-- The state between the characters of a text, the last one first. -/
def Literal.between (reversed : List Char) : Literal := ⟨reversed, .plain⟩

theorem step_plain {c : Char} (h : Plain c) :
    (Literal.between reversed).step purpose c = .more (.between (c :: reversed)) := by
  simp only [Literal.between, Literal.step, if_neg h.ne_quote, if_neg h.ne_backslash,
    if_neg (Nat.not_lt.mpr h.not_control), Literal.push]

theorem step_quote :
    (Literal.between reversed).step purpose '"' = .done (String.ofList reversed.reverse) := rfl

theorem leads_escape {letter c : Char} (h : Escape letter c) :
    Leads (Literal.step purpose) (.between reversed) ['\\', letter]
      (.between (c :: reversed)) := by
  have hletter : letter ≠ 'u' := by rintro rfl; cases h
  have hchar : escapeChar? letter = some c := by cases h <;> rfl
  refine .cons (m := ⟨reversed, .escape⟩) rfl (.single ?_)
  simp only [Literal.step, if_neg hletter, hchar, Literal.push, Literal.between]

theorem hexDigit?_of_hexDigit {digit : Char} {value : Nat} (h : HexDigit digit value) :
    hexDigit? digit = some value ∧ digit.utf8Size = 1 := by
  obtain ⟨hlt, hdigit⟩ := h
  have hlower : ∀ v : Fin 16, hexDigit? v.val.digitChar = some v.val ∧
      v.val.digitChar.utf8Size = 1 := by decide
  have hupper : ∀ v : Fin 16, hexDigit? v.val.digitChar.toUpper = some v.val ∧
      v.val.digitChar.toUpper.utf8Size = 1 := by decide
  rcases hdigit with rfl | rfl
  · exact hlower ⟨value, hlt⟩
  · exact hupper ⟨value, hlt⟩

/-- A digit of an escape by code point that is not its last one. -/
theorem step_digit {lead : Option Nat} {bytes code value : Nat} {digit : Char}
    (h : HexDigit digit value) (hbytes : bytes < 3) :
    (Literal.mk reversed (.code lead bytes (some code))).step purpose digit =
      .more ⟨reversed, .code lead (bytes + 1) (some (code * 16 + value))⟩ := by
  obtain ⟨hvalue, hsize⟩ := hexDigit?_of_hexDigit h
  have hmore : bytes + 1 < 4 := by omega
  simp only [Literal.step, hvalue, hsize, if_pos hmore]
  rfl

/-- The last digit of an escape by code point ends it. -/
theorem step_lastDigit {lead : Option Nat} {code value : Nat} {digit : Char}
    (h : HexDigit digit value) :
    (Literal.mk reversed (.code lead 3 (some code))).step purpose digit =
      (Literal.mk reversed (.code lead 3 (some code))).endCode purpose lead
        (code * 16 + value) := by
  obtain ⟨hvalue, hsize⟩ := hexDigit?_of_hexDigit h
  simp only [Literal.step, hvalue, hsize]
  rfl

/-- The digits of an escape by code point lead to the last of them, which ends it. -/
theorem leads_lastDigit (reversed : List Char) (lead : Option Nat) {digits : List Char}
    {unit : Nat} (h : CodeUnit digits unit) :
    ∃ front last phase, digits = front ++ [last] ∧
      Leads (Literal.step purpose) ⟨reversed, .code lead 0 (some 0)⟩ front ⟨reversed, phase⟩ ∧
      (Literal.mk reversed phase).step purpose last =
        (Literal.mk reversed phase).endCode purpose lead unit := by
  obtain @⟨p, q, r, s, a, b, c, d, hp, hq, hr, hs⟩ := h
  have hfirst : (Literal.mk reversed (.code lead 0 (some 0))).step purpose p =
      .more ⟨reversed, .code lead 1 (some a)⟩ := by
    rw [step_digit hp (by omega), Nat.zero_mul, Nat.zero_add, Nat.zero_add]
  have hthird : Leads (Literal.step purpose) ⟨reversed, .code lead 0 (some 0)⟩ [p, q, r]
      ⟨reversed, .code lead 3 (some ((a * 16 + b) * 16 + c))⟩ :=
    .cons hfirst (.cons (step_digit hq (by omega)) (.single (step_digit hr (by omega))))
  exact ⟨[p, q, r], s, _, rfl, hthird, step_lastDigit hs⟩

/-- The digits of an escape by code point lead to what its end leads to. -/
theorem leads_codeUnit {lead : Option Nat} {digits : List Char} {unit : Nat} {next : Literal}
    (h : CodeUnit digits unit)
    (hend : ∀ phase, (Literal.mk reversed phase).endCode purpose lead unit = .more next) :
    Leads (Literal.step purpose) ⟨reversed, .code lead 0 (some 0)⟩ digits next := by
  obtain ⟨front, last, phase, rfl, hfront, hlast⟩ := leads_lastDigit reversed lead h
  exact hfront.append (.single (hlast.trans (hend phase)))

/-- The mark of an escape by code point. -/
theorem leads_codeMark :
    Leads (Literal.step purpose) (.between reversed) ['\\', 'u']
      ⟨reversed, .code none 0 (some 0)⟩ :=
  .cons (m := ⟨reversed, .escape⟩) rfl (.single rfl)

/-- The mark of the trailing surrogate. -/
theorem leads_partnerMark {lead : Nat} :
    Leads (Literal.step purpose) ⟨reversed, .partner lead⟩ ['\\', 'u']
      ⟨reversed, .code (some lead) 0 (some 0)⟩ :=
  .cons (m := ⟨reversed, .partnerMark lead⟩) rfl (.single rfl)

/-- A character is not a surrogate. -/
theorem not_surrogate (c : Char) : isLead c.toNat = false ∧ isTrail c.toNat = false := by
  have hvalid : c.toNat < 0xD800 ∨ 0xDFFF < c.toNat ∧ c.toNat < 0x110000 := c.valid
  simp only [isLead, isTrail, Bool.and_eq_false_iff, decide_eq_false_iff_not, Nat.not_le]
  omega

/-- A single escape by code point ends with its character. -/
theorem endCode_char (c : Char) (phase : LiteralPhase) :
    (Literal.mk reversed phase).endCode .decode none c.toNat =
      .more (.between (c :: reversed)) := by
  obtain ⟨hlead, htrail⟩ := not_surrogate c
  simp only [Literal.endCode, hlead, htrail, Literal.push, Char.ofNat_toNat, Literal.between,
    Bool.false_eq_true, if_false]

/-- A leading surrogate waits for its partner. -/
theorem endCode_lead {high : Nat} (h : high < 0x400) (phase : LiteralPhase) :
    (Literal.mk reversed phase).endCode .decode none (0xD800 + high) =
      .more ⟨reversed, .partner (0xD800 + high)⟩ := by
  have htrail : isTrail (0xD800 + high) = false := by
    simp only [isTrail, Bool.and_eq_false_iff, decide_eq_false_iff_not]
    omega
  have hlead : isLead (0xD800 + high) = true := by
    simp only [isLead, Bool.and_eq_true, decide_eq_true_eq]
    omega
  simp only [Literal.endCode, htrail, hlead, Literal.goto, Bool.false_eq_true, if_false, if_true]

/-- A trailing surrogate and its partner end with the character they split. -/
theorem endCode_trail {high low : Nat} {c : Char} (h : low < 0x400)
    (hc : c.toNat = 0x10000 + high * 0x400 + low) (phase : LiteralPhase) :
    (Literal.mk reversed phase).endCode .decode (some (0xD800 + high)) (0xDC00 + low) =
      .more (.between (c :: reversed)) := by
  have htrail : isTrail (0xDC00 + low) = true := by
    simp only [isTrail, Bool.and_eq_true, decide_eq_true_eq]
    omega
  have hjoin : joinSurrogates (0xD800 + high) (0xDC00 + low) = c.toNat := by
    unfold joinSurrogates
    omega
  simp only [Literal.endCode, htrail, hjoin, Literal.push, Char.ofNat_toNat, Literal.between,
    if_true]

/-- A text that is decoded leaves the characters that it spells. -/
theorem leads_decode {body chars : List Char} (h : Spells body chars) :
    Leads (Literal.step .decode) (.between reversed) body
      (.between (chars.reverse ++ reversed)) := by
  induction h generalizing reversed with
  | nil => exact .nil
  | plain hplain _ ih =>
    rw [List.reverse_cons, List.append_assoc]
    exact .cons (step_plain hplain) ih
  | escape hescape _ ih =>
    rw [List.reverse_cons, List.append_assoc]
    exact (leads_escape hescape).append ih
  | code hdigits _ ih =>
    rw [List.reverse_cons, List.append_assoc]
    exact leads_codeMark.append ((leads_codeUnit hdigits (endCode_char _)).append ih)
  | pair hhigh hlow hc hlead htrail _ ih =>
    rw [List.reverse_cons, List.append_assoc]
    exact leads_codeMark.append ((leads_codeUnit hlead (endCode_lead hhigh)).append
      (leads_partnerMark.append ((leads_codeUnit htrail (endCode_trail hlow hc)).append ih)))

/-- A text that is decoded is read as the characters that it spells. -/
theorem reads_decode {body chars : List Char} (h : Spells body chars) :
    Reads (Literal.step .decode) {} (body ++ ['"']) (String.ofList chars) := by
  have hcourse : Leads (Literal.step .decode) (.between []) body
      (.between (chars.reverse ++ [])) := leads_decode h
  refine hcourse.reads (.last ?_)
  rw [step_quote, List.append_nil, List.reverse_reverse]

/-- A text that is skipped is led through, whatever it stands for. -/
theorem leads_skip {body : List Char} (h : Body body) :
    ∃ seen, Leads (Literal.step .skip) (.between reversed) body (.between seen) := by
  induction h generalizing reversed with
  | nil => exact ⟨reversed, .nil⟩
  | plain hplain _ ih =>
    obtain ⟨seen, hseen⟩ := ih
    exact ⟨seen, .cons (step_plain hplain) hseen⟩
  | escape hescape _ ih =>
    obtain ⟨seen, hseen⟩ := ih
    exact ⟨seen, (leads_escape hescape).append hseen⟩
  | code hdigits _ ih =>
    obtain ⟨seen, hseen⟩ := ih
    exact ⟨seen, leads_codeMark.append ((leads_codeUnit hdigits fun _ => rfl).append hseen)⟩

/-- A text that is skipped is read to its closing quote. -/
theorem reads_skip {body : List Char} (h : Body body) :
    ∃ given, Reads (Literal.step .skip) {} (body ++ ['"']) given := by
  obtain ⟨seen, hseen⟩ : ∃ seen, Leads (Literal.step .skip) (.between []) body
      (.between seen) := leads_skip h
  exact ⟨_, hseen.reads (.last step_quote)⟩

/-- A text that is decoded is between two characters, or a trailing surrogate has to come. -/
def Literal.AtRest (literal : Literal) : Prop :=
  literal.phase = .plain ∨ ∃ lead, literal.phase = .partner lead

theorem atRest_between (reversed : List Char) : (Literal.between reversed).AtRest := .inl rfl

/-- An escape by code point ends at rest, or it is malformed. -/
theorem endCode_decode (literal : Literal) (lead : Option Nat) (code : Nat) :
    (∃ next : Literal, literal.endCode .decode lead code = .more next ∧ next.AtRest) ∨
      literal.endCode .decode lead code = .malformed := by
  unfold Literal.endCode
  split
  · next hpurpose => cases hpurpose
  · split
    · exact .inl ⟨_, rfl, .inl rfl⟩
    · exact .inr rfl
  · split
    · exact .inr rfl
    · split
      · exact .inl ⟨_, rfl, .inr ⟨code, rfl⟩⟩
      · exact .inl ⟨_, rfl, .inl rfl⟩

/-- What follows the digits of an escape by code point is settled if it is from every rest. -/
theorem settles_codeUnit (lead : Option Nat) {digits rest : List Char} {unit : Nat}
    (h : CodeUnit digits unit)
    (hrest : ∀ next : Literal, next.AtRest →
      ∃ outcome, Settles (Literal.step .decode) next rest outcome) :
    ∃ outcome, Settles (Literal.step .decode) ⟨reversed, .code lead 0 (some 0)⟩ (digits ++ rest)
      outcome := by
  obtain ⟨front, last, phase, rfl, hfront, hlast⟩ := leads_lastDigit reversed lead h
  obtain ⟨next, hend, hatRest⟩ | hend := endCode_decode ⟨reversed, phase⟩ lead unit
  · obtain ⟨outcome, houtcome⟩ := hrest next hatRest
    exact ⟨outcome, (hfront.append (.single (hlast.trans hend))).settles houtcome⟩
  · exact ⟨_, .stopped ((hfront.stops (.last (hlast.trans hend))).append rest)⟩

/-- A text between quotes is never left open by the reader that decodes it. -/
theorem settles_decode {body : List Char} (h : Body body) {literal : Literal}
    (hrest : literal.AtRest) :
    ∃ outcome, Settles (Literal.step .decode) literal (body ++ ['"']) outcome := by
  induction h generalizing literal with
  | nil =>
    obtain ⟨reversed, phase⟩ := literal
    obtain rfl | ⟨lead, rfl⟩ := hrest
    · exact ⟨_, .read (.last step_quote)⟩
    · exact ⟨_, .stopped (.last rfl)⟩
  | plain hplain _ ih =>
    obtain ⟨reversed, phase⟩ := literal
    obtain rfl | ⟨lead, rfl⟩ := hrest
    · obtain ⟨outcome, h⟩ := ih (atRest_between _)
      exact ⟨outcome, (Leads.single (step_plain hplain)).settles h⟩
    · exact ⟨_, .stopped (.last (if_neg hplain.ne_backslash))⟩
  | @escape letter _ _ hescape _ ih =>
    obtain ⟨reversed, phase⟩ := literal
    obtain rfl | ⟨lead, rfl⟩ := hrest
    · obtain ⟨outcome, h⟩ := ih (atRest_between _)
      exact ⟨outcome, (leads_escape hescape).settles h⟩
    · -- A leading surrogate has no partner among the escapes by letter.
      have hletter : letter ≠ 'u' := by rintro rfl; cases hescape
      have hmark : (Literal.mk reversed (.partnerMark lead)).step .decode letter = .malformed :=
        if_neg hletter
      exact ⟨_, .stopped (.cons (m := ⟨reversed, .partnerMark lead⟩) rfl (.last hmark))⟩
  | code hdigits _ ih =>
    rw [List.append_assoc]
    obtain ⟨reversed, phase⟩ := literal
    obtain rfl | ⟨lead, rfl⟩ := hrest
    · obtain ⟨outcome, h⟩ := settles_codeUnit none hdigits fun _ => ih
      exact ⟨outcome, leads_codeMark.settles h⟩
    · obtain ⟨outcome, h⟩ := settles_codeUnit (some lead) hdigits fun _ => ih
      exact ⟨outcome, leads_partnerMark.settles h⟩

end Literal

end SidVoice.Json
