import Mathlib.Data.List.DropRight
import Mathlib.Data.List.Forall2
import SidVoice.Name

/-!
# The spellings of a name

A reader of names accepts exactly the texts that are padding, a name and padding again, where
the name may differ from the listed one in the case of its letters from A to Z. Everything else
is refused and reported as it was given.

The grammar below names the white space characters and the letters one by one. It does not use
how the readers trim or fold a text.
-/

namespace SidVoice

/-! ## White space -/

/-- The code points of white space, in ascending order. -/
def whiteSpace : List Nat :=
  [0x9, 0xA, 0xB, 0xC, 0xD, 0x20, 0x85, 0xA0, 0x1680, 0x2000, 0x2001, 0x2002, 0x2003, 0x2004,
    0x2005, 0x2006, 0x2007, 0x2008, 0x2009, 0x200A, 0x2028, 0x2029, 0x202F, 0x205F, 0x3000]

/-- A text of white space alone. -/
def Padding (text : List Char) : Prop := ∀ c ∈ text, c.toNat ∈ whiteSpace

theorem isBlank_iff_mem_whiteSpace (c : Char) :
    Text.isBlank c = true ↔ c.toNat ∈ whiteSpace := by
  simp only [Text.isBlank, Text.blankRanges, whiteSpace, List.any_cons, List.any_nil, List.mem_cons,
    List.not_mem_nil, Bool.or_eq_true, Bool.and_eq_true, decide_eq_true_eq, Bool.false_eq_true,
    or_false]
  omega

namespace Padding

variable {before text after : List Char}

theorem isBlank (h : Padding text) : ∀ c ∈ text, Text.isBlank c = true :=
  fun c hc => (isBlank_iff_mem_whiteSpace c).mpr (h c hc)

theorem mono {part : List Char} (h : Padding text) (hpart : part ⊆ text) : Padding part :=
  fun c hc => h c (hpart hc)

theorem reverse (h : Padding text) : Padding text.reverse :=
  h.mono fun _ => List.mem_reverse.mp

end Padding

namespace Text

variable {before text after : List Char}

/-- Trimming drops blanks on the left, then on the right. -/
theorem trim_eq_rdropWhile (text : List Char) :
    trim text = (text.dropWhile isBlank).rdropWhile isBlank := rfl

/-- A text is what trimming leaves of it, with padding around. -/
theorem exists_eq_trim (text : List Char) :
    ∃ before after, Padding before ∧ Padding after ∧ text = before ++ trim text ++ after := by
  have hpadding {l : List Char} (h : ∀ c ∈ l, isBlank c = true) : Padding l :=
    fun c hc => (isBlank_iff_mem_whiteSpace c).mp (h c hc)
  refine ⟨text.takeWhile isBlank, (text.dropWhile isBlank).rtakeWhile isBlank,
    hpadding fun c hc => List.mem_takeWhile_imp hc,
    hpadding fun c hc => List.mem_rtakeWhile_imp hc, ?_⟩
  rw [trim_eq_rdropWhile, List.append_assoc, List.rdropWhile_append_rtakeWhile,
    List.takeWhile_append_dropWhile]

/-- Padding on the right does not change what trimming leaves. -/
theorem trim_append (h : Padding after) : trim (text ++ after) = trim text := by
  have hafter : after.dropWhile isBlank = [] := dropWhile_isBlank_of_all h.isBlank
  have hdrop : after.reverse.dropWhile isBlank = [] := dropWhile_isBlank_of_all h.reverse.isBlank
  rw [trim, trim, List.dropWhile_append]
  split
  next hempty => rw [List.isEmpty_iff.mp hempty, hafter]
  next => rw [List.reverse_append, List.dropWhile_append, if_pos (List.isEmpty_iff.mpr hdrop)]

/-- Padding around a text does not change what trimming leaves. -/
theorem trim_padded (hbefore : Padding before) (hafter : Padding after) :
    trim (before ++ text ++ after) = trim text := by
  rw [trim_append hafter, trim, List.dropWhile_append_of_pos hbefore.isBlank]
  rfl

/-- A text without blanks is left as it is. -/
theorem trim_of_no_blank (h : ∀ c ∈ text, isBlank c = false) : trim text = text := by
  have hdrop {l : List Char} (hl : ∀ c ∈ l, isBlank c = false) : l.dropWhile isBlank = l :=
    List.dropWhile_eq_self_iff.mpr fun hlength => by
      rw [hl _ (List.getElem_mem hlength)]
      exact Bool.false_ne_true
  rw [trim, hdrop h, hdrop fun c hc => h c (List.mem_reverse.mp hc), List.reverse_reverse]

/-- Trimming and a change of letters that keeps blanks go in either order. -/
theorem trim_map {f : Char → Char} (h : ∀ c, isBlank (f c) = isBlank c) (text : List Char) :
    trim (text.map f) = (trim text).map f := by
  have hcomp : isBlank ∘ f = isBlank := funext h
  rw [trim, trim, List.dropWhile_map, ← List.map_reverse, List.dropWhile_map, hcomp,
    List.map_reverse]

end Text

/-! ## The case of letters -/

/-- The same character, but for the case of a letter from A to Z. -/
inductive SameLetter : Char → Char → Prop
  | same (c : Char) : SameLetter c c
  | lowered (place : Fin 26) :
    SameLetter (Char.ofNat ('A'.toNat + place)) (Char.ofNat ('a'.toNat + place))
  | raised (place : Fin 26) :
    SameLetter (Char.ofNat ('a'.toNat + place)) (Char.ofNat ('A'.toNat + place))

/-- A character is a capital from A to Z, or its own lower case. -/
theorem capital_or_toLower_eq (c : Char) :
    (∃ place : Fin 26, c = Char.ofNat ('A'.toNat + place)) ∨ c.toLower = c := by
  by_cases h : c.val ≥ 'A'.val ∧ c.val ≤ 'Z'.val
  · have hbounds : 65 ≤ c.toNat ∧ c.toNat ≤ 90 := h
    refine .inl ⟨⟨c.toNat - 65, by omega⟩, ?_⟩
    have hplace : 'A'.toNat + (c.toNat - 65) = c.toNat := by
      change 65 + (c.toNat - 65) = c.toNat
      omega
    rw [hplace, Char.ofNat_toNat]
  · exact .inr (dif_neg h)

theorem toLower_capital (place : Fin 26) :
    (Char.ofNat ('A'.toNat + place)).toLower = Char.ofNat ('a'.toNat + place) := by
  revert place
  decide

theorem toLower_small (place : Fin 26) :
    (Char.ofNat ('a'.toNat + place)).toLower = Char.ofNat ('a'.toNat + place) := by
  revert place
  decide

theorem SameLetter.toLower_eq {c d : Char} (h : SameLetter c d) : c.toLower = d.toLower := by
  cases h with
  | same => rfl
  | lowered place => rw [toLower_capital, toLower_small]
  | raised place => rw [toLower_capital, toLower_small]

/-- A character and its lower case are the same letter. -/
theorem sameLetter_toLower (c : Char) : SameLetter c c.toLower := by
  obtain ⟨place, rfl⟩ | hlower := capital_or_toLower_eq c
  · rw [toLower_capital]
    exact .lowered place
  · rw [hlower]
    exact .same c

/-- No letter with two cases is a blank. -/
theorem isBlank_toLower (c : Char) : Text.isBlank c.toLower = Text.isBlank c := by
  obtain ⟨place, rfl⟩ | hlower := capital_or_toLower_eq c
  · revert place
    decide
  · rw [hlower]

/-! ## Spellings -/

/-- Padding, a text up to the case of its letters, and padding again. -/
def Spelled (given text : String) : Prop :=
  ∃ before core after, given.toList = before ++ core ++ after ∧
    Padding before ∧ List.Forall₂ SameLetter core text.toList ∧ Padding after

/-- A character of a listed name: an ASCII character that is neither a blank nor a capital. -/
def ListedChar (c : Char) : Prop := Text.isBlank c = false ∧ c.toLower = c ∧ c.toNat < 0x80

instance (c : Char) : Decidable (ListedChar c) :=
  inferInstanceAs (Decidable (Text.isBlank c = false ∧ c.toLower = c ∧ c.toNat < 0x80))

/-- Names as they are listed. -/
def Listed (name : String) : Prop := ∀ c ∈ name.toList, ListedChar c

instance (name : String) : Decidable (Listed name) := List.decidableBAll ListedChar name.toList

section

variable {given text name : String}

theorem map_toLower_eq {core letters : List Char} (h : List.Forall₂ SameLetter core letters) :
    core.map Char.toLower = letters.map Char.toLower := by
  induction h with
  | nil => rfl
  | cons hletter _ ih => rw [List.map_cons, List.map_cons, hletter.toLower_eq, ih]

theorem forall₂_sameLetter_toLower (core : List Char) :
    List.Forall₂ SameLetter core (core.map Char.toLower) := by
  induction core with
  | nil => exact .nil
  | cons c core ih => exact .cons (sameLetter_toLower c) ih

/-- Spellings of one text are compared in one form. -/
theorem Spelled.foldName_eq (h : Spelled given text) : foldName given = foldName text := by
  obtain ⟨before, core, after, hgiven, hbefore, hletters, hafter⟩ := h
  calc foldName given
      = (Text.trim core).map Char.toLower := by
        rw [foldName, hgiven, Text.trim_padded hbefore hafter]
    _ = Text.trim (text.toList.map Char.toLower) := by
        rw [← Text.trim_map isBlank_toLower, map_toLower_eq hletters]
    _ = foldName text := Text.trim_map isBlank_toLower text.toList

theorem Listed.foldName_eq (h : Listed name) : foldName name = name.toList := by
  rw [foldName, Text.trim_of_no_blank fun c hc => (h c hc).1]
  exact (List.map_congr_left fun c hc => (h c hc).2.1).trans (List.map_id name.toList)

/-- The form in which names are compared is a listed name for the spellings of that name, and
for nothing else. -/
theorem spelled_iff_foldName_eq (h : Listed name) :
    Spelled given name ↔ foldName given = name.toList := by
  constructor
  · intro hspelled
    rw [hspelled.foldName_eq, h.foldName_eq]
  · intro hfold
    obtain ⟨before, after, hbefore, hafter, hgiven⟩ := Text.exists_eq_trim given.toList
    refine ⟨before, Text.trim given.toList, after, hgiven, hbefore, ?_, hafter⟩
    rw [← hfold]
    exact forall₂_sameLetter_toLower _

/-- What lies between the padding of a name's spelling is neither white space nor beyond ASCII. -/
theorem Listed.core (h : Listed name) {core : List Char}
    (hletters : List.Forall₂ SameLetter core name.toList) {c : Char} (hc : c ∈ core) :
    c.toNat ∉ whiteSpace ∧ c.toNat < 0x80 := by
  have hmem : c.toLower ∈ name.toList.map Char.toLower := by
    rw [← map_toLower_eq hletters]
    exact List.mem_map_of_mem hc
  obtain ⟨d, hd, hlower⟩ := List.mem_map.mp hmem
  obtain ⟨hblank, hsmall, hascii⟩ := h d hd
  rw [hsmall] at hlower
  rw [← isBlank_iff_mem_whiteSpace, ← isBlank_toLower, ← hlower, hblank]
  refine ⟨Bool.false_ne_true, ?_⟩
  obtain ⟨place, rfl⟩ | hself := capital_or_toLower_eq c
  · clear hlower hmem hc
    revert place
    decide
  · rwa [← hself, ← hlower]

/-- A character beyond ASCII belongs to the padding of a spelling. -/
theorem Spelled.mem_whiteSpace (h : Spelled given name) (hlisted : Listed name) {c : Char}
    (hc : c ∈ given.toList) (hbeyond : 0x80 ≤ c.toNat) : c.toNat ∈ whiteSpace := by
  obtain ⟨before, core, after, hgiven, hbefore, hletters, hafter⟩ := h
  rw [hgiven, List.mem_append, List.mem_append] at hc
  obtain (hc | hc) | hc := hc
  · exact hbefore c hc
  · exact absurd (hlisted.core hletters hc).2 (Nat.not_lt.mpr hbeyond)
  · exact hafter c hc

/-- White space in a spelling has nothing but padding before it or after it. -/
theorem Spelled.padding_or_padding (h : Spelled given name) (hlisted : Listed name)
    {left right : List Char} {c : Char} (hgiven : given.toList = left ++ c :: right)
    (hc : c.toNat ∈ whiteSpace) : Padding left ∨ Padding right := by
  obtain ⟨before, core, after, hsplit, hbefore, hletters, hafter⟩ := h
  rw [hsplit, List.append_assoc] at hgiven
  obtain ⟨rest, -, hcore⟩ | ⟨rest, rfl, -⟩ := List.append_eq_append_iff.mp hgiven
  · right
    obtain ⟨inner, -, rfl⟩ | ⟨inner, hinner, hright⟩ := List.append_eq_append_iff.mp hcore
    · exact hafter.mono fun d hd => List.mem_append_right inner (List.mem_cons_of_mem c hd)
    · obtain ⟨-, rfl⟩ | ⟨tail, rfl, -⟩ := List.cons_eq_append_iff.mp hright
      · exact hafter.mono (List.subset_cons_self c right)
      · have hmem : c ∈ core := by
          rw [hinner]
          exact List.mem_append_right rest List.mem_cons_self
        exact absurd hc (hlisted.core hletters hmem).1
  · left
    exact hbefore.mono (List.subset_append_left left rest)

end

/-! ## Readers of names -/

/-- The names of chips. -/
def listedChips : List (String × Chip) :=
  [("6581", .mos6581), ("mos6581", .mos6581), ("8580", .mos8580), ("mos8580", .mos8580)]

/-- The names of strengths. -/
def listedStrengths : List (String × Strength) :=
  [("average", .average), ("weak", .weak), ("strong", .strong)]

/-- A reader that accepts the spellings of the names in a table and nothing else. -/
structure ReadsSpellings {α : Type} (read : String → Except NameError α)
    (table : List (String × α)) (unknown : String → NameError) : Prop where
  /-- A value is read from the spellings of its names. -/
  ok_iff (given : String) (value : α) :
    read given = .ok value ↔ ∃ name, (name, value) ∈ table ∧ Spelled given name
  /-- A text that spells no name is reported as it was given. -/
  error_iff (given : String) :
    read given = .error (unknown given) ↔ ∀ entry ∈ table, ¬ Spelled given entry.1
  /-- A text with white space inside is reported: on both sides of it stands more than padding. -/
  interior {given : String} {left right : List Char} {c : Char} :
    given.toList = left ++ c :: right → c.toNat ∈ whiteSpace → ¬ Padding left → ¬ Padding right →
      read given = .error (unknown given)
  /-- A text with a character beyond ASCII that is not white space is reported. -/
  beyond {given : String} {c : Char} :
    c ∈ given.toList → 0x80 ≤ c.toNat → c.toNat ∉ whiteSpace → read given = .error (unknown given)
  /-- Padding and the case of letters do not change what is read. -/
  respelled (given other : String) (value : α) :
    Spelled other given → (read other = .ok value ↔ read given = .ok value)

/-- Whether the folded form of a text is one of the names of a value. -/
def answersTo {α : Type} (names : α → List String) (given : String) (value : α) : Bool :=
  (names value).any fun name => name.toList == foldName given

theorem answersTo_eq {α : Type} (names : α → List String) (given : String) :
    answersTo names given =
      fun value => (names value).any fun name => name.toList == foldName given := rfl

/-- A table of listed names by which a search through all values can tell these apart. -/
structure Vocabulary {α : Type} (all : List α) (names : α → List String)
    (table : List (String × α)) : Prop where
  mem_all (value : α) : value ∈ all
  mem_iff (name : String) (value : α) : (name, value) ∈ table ↔ name ∈ names value
  listed : ∀ entry ∈ table, Listed entry.1
  unique : ∀ v ∈ table, ∀ w ∈ table, v.1 = w.1 → v.2 = w.2

namespace Vocabulary

variable {α : Type} {all : List α} {names : α → List String} {table : List (String × α)}

/-- A value answers to a text that spells one of its names. -/
theorem answersTo_iff (h : Vocabulary all names table) (given : String) (value : α) :
    answersTo names given value = true ↔ ∃ name, (name, value) ∈ table ∧ Spelled given name := by
  rw [answersTo, List.any_eq_true]
  refine exists_congr fun name => ?_
  rw [← h.mem_iff, beq_iff_eq]
  exact and_congr_right fun hname =>
    eq_comm.trans (spelled_iff_foldName_eq (h.listed _ hname)).symm

/-- A text spells the names of one value only. -/
theorem spelled_unique (h : Vocabulary all names table) {given : String} {v w : α}
    (hv : ∃ name, (name, v) ∈ table ∧ Spelled given name)
    (hw : ∃ name, (name, w) ∈ table ∧ Spelled given name) : v = w := by
  obtain ⟨name, hname, hspelled⟩ := hv
  obtain ⟨other, hother, hspelled'⟩ := hw
  have hfold := (spelled_iff_foldName_eq (h.listed _ hname)).mp hspelled
  have hfold' := (spelled_iff_foldName_eq (h.listed _ hother)).mp hspelled'
  exact h.unique _ hname _ hother (String.toList_inj.mp (hfold.symm.trans hfold'))

/-- The search finds a value from the spellings of its names. -/
theorem find?_eq_some_iff (h : Vocabulary all names table) (given : String) (value : α) :
    all.find? (answersTo names given) = some value ↔
      ∃ name, (name, value) ∈ table ∧ Spelled given name := by
  constructor
  · intro hfind
    exact (h.answersTo_iff given value).mp (List.find?_some hfind)
  · intro hvalue
    cases hfind : all.find? (answersTo names given) with
    | none =>
      exact absurd ((h.answersTo_iff given value).mpr hvalue)
        (List.find?_eq_none.mp hfind value (h.mem_all value))
    | some found =>
      have hfound := (h.answersTo_iff given found).mp (List.find?_some hfind)
      rw [h.spelled_unique hfound hvalue]

/-- A reader that searches for a folded name accepts the spellings of the names in the table. -/
theorem readsSpellings (h : Vocabulary all names table) {read : String → Except NameError α}
    {unknown : String → NameError}
    (hread : ∀ given, read given =
      (all.find? (answersTo names given)).elim (.error (unknown given)) .ok) :
    ReadsSpellings read table unknown := by
  have hok (given : String) (value : α) :
      read given = .ok value ↔ all.find? (answersTo names given) = some value := by
    rw [hread]
    cases all.find? (answersTo names given) <;> simp
  have herror (given : String) :
      read given = .error (unknown given) ↔
        ∀ value, all.find? (answersTo names given) ≠ some value := by
    rw [hread]
    cases all.find? (answersTo names given) <;> simp
  have hunspelled (given : String) :
      read given = .error (unknown given) ↔ ∀ entry ∈ table, ¬ Spelled given entry.1 := by
    simp only [herror, ne_eq, h.find?_eq_some_iff, not_exists, not_and]
    exact ⟨fun hnone entry hentry => hnone entry.2 entry.1 hentry,
      fun hnone value name hname => hnone (name, value) hname⟩
  constructor
  case ok_iff =>
    intro given value
    rw [hok, h.find?_eq_some_iff]
  case error_iff => exact hunspelled
  case interior =>
    intro given left right c hgiven hc hleft hright
    refine (hunspelled given).mpr fun entry hentry hspelled => ?_
    exact (hspelled.padding_or_padding (h.listed entry hentry) hgiven hc).elim hleft hright
  case beyond =>
    intro given c hc hbeyond hwhite
    refine (hunspelled given).mpr fun entry hentry hspelled => ?_
    exact hwhite (hspelled.mem_whiteSpace (h.listed entry hentry) hc hbeyond)
  case respelled =>
    intro given other value hspelled
    have hanswers : answersTo names other = answersTo names given := by
      funext v
      rw [answersTo, answersTo, hspelled.foldName_eq]
    rw [hok, hok, hanswers]

end Vocabulary

namespace Chip

theorem vocabulary : Vocabulary all names listedChips where
  mem_all := mem_all
  mem_iff name chip := by cases chip <;> simp [listedChips, names]
  listed := by decide
  unique := by decide

end Chip

namespace Strength

theorem vocabulary : Vocabulary all names listedStrengths where
  mem_all := mem_all
  mem_iff name strength := by cases strength <;> simp [listedStrengths, names, key]
  listed := by decide
  unique := by decide

end Strength

/-- Chips and strengths are read from exactly the spellings of their names. Everything else is
reported as it was given, also a text with white space inside or with a letter beyond ASCII. What a
value is shown or stored as is one of its names. -/
theorem ofName_reads_spellings :
    ReadsSpellings Chip.ofName listedChips .unknownChip ∧
      ReadsSpellings Strength.ofName listedStrengths .unknownStrength ∧
      (∀ chip : Chip, Chip.ofName chip.title = .ok chip ∧ Chip.ofName chip.key = .ok chip) ∧
      ∀ strength : Strength, Strength.ofName strength.key = .ok strength := by
  refine ⟨Chip.vocabulary.readsSpellings fun given => ?_,
    Strength.vocabulary.readsSpellings fun given => ?_, fun chip => ?_, fun strength => ?_⟩
  · rw [Chip.ofName, answersTo_eq]
    split <;> next hfind => rw [hfind]; rfl
  · rw [Strength.ofName, answersTo_eq]
    split <;> next hfind => rw [hfind]; rfl
  · cases chip <;> exact ⟨by decide, by decide⟩
  · cases strength <;> decide

-- A no-break space and an ideographic space are white space.
example : Chip.ofName "\u00a0MoS6581\u3000" = .ok .mos6581 := by decide

-- The Kelvin sign has the lower case `k` in Unicode, and is no letter from A to Z.
example : Strength.ofName "wea\u212a" = .error (.unknownStrength "wea\u212a") := by decide

end SidVoice
