import Mathlib.Data.List.Forall2
import Mathlib.Data.List.Nodup
import SidVoice.Json.Setup
import SidVoice.Proofs.Json.Grammar

/-!
# The members of a stored setup

A setup is stored as an object or as a list. An object has entries, each a key and the text of a
value, and a list has the texts of its elements. Both are relations between a text and its parts,
with no reader in sight; a part that is a value is a text of the grammar by its type.

The entries of interest give members: the two known fields, each with a name as its value, and
any others, with any value. What members give depends on the known ones only, and on their order
only if one is repeated.

The key of an entry has to spell a text, as every key does that is compared.
-/

namespace SidVoice.Json

open Grammar

/-! ## The parts of objects and lists -/

/-- The text of a value, with the blanks around it. -/
structure ValueText where
  /-- The text. -/
  text : String
  /-- It is the text of a value. -/
  valid : Phrase .padded text.toList

/-- A key of an object and its value. -/
structure Entry where
  /-- The key. -/
  key : String
  /-- The value. -/
  value : ValueText

/-- Whether the key of an entry is that of a field. -/
def Entry.isKnown (entry : Entry) : Bool := (Field.ofKey? entry.key).isSome

/-- The entries of the fields in their order, with these values as far as they go. -/
def entriesOf (values : List ValueText) : List Entry :=
  List.zipWith Entry.mk [Field.chip.key, Field.strength.key] values

/-- The texts of an entry. -/
inductive EntryText (entry : Entry) : List Char → Prop
  | entry {before body after : List Char} :
    Blank before → Spells body entry.key.toList → Blank after →
      EntryText entry (before ++ inQuotes body ++ after ++ ':' :: entry.value.text.toList)

/-- The texts of one or more entries with commas between them. -/
inductive EntriesText : List Entry → List Char → Prop
  | last {entry : Entry} {text : List Char} : EntryText entry text → EntriesText [entry] text
  | cons {entry : Entry} {entries : List Entry} {text rest : List Char} :
    EntryText entry text → EntriesText entries rest →
      EntriesText (entry :: entries) (text ++ ',' :: rest)

/-- The texts of an object with these entries, with blanks around it. -/
inductive ObjectText : List Entry → List Char → Prop
  | empty {before blank after : List Char} :
    Blank before → Blank blank → Blank after →
      ObjectText [] (before ++ '\x7b' :: blank ++ ['\x7d'] ++ after)
  | entries {entries : List Entry} {before text after : List Char} :
    Blank before → EntriesText entries text → Blank after →
      ObjectText entries (before ++ '\x7b' :: text ++ ['\x7d'] ++ after)

/-- The texts of one or more elements with commas between them. -/
inductive ItemsText : List ValueText → List Char → Prop
  | last {item : ValueText} : ItemsText [item] item.text.toList
  | cons {item : ValueText} {items : List ValueText} {rest : List Char} :
    ItemsText items rest → ItemsText (item :: items) (item.text.toList ++ ',' :: rest)

theorem ItemsText.ne_nil {items : List ValueText} {text : List Char} (h : ItemsText items text) :
    items ≠ [] := by
  cases h <;> exact List.cons_ne_nil _ _

/-- The texts of a list with these elements, with blanks around it. -/
inductive ListText : List ValueText → List Char → Prop
  | empty {before blank after : List Char} :
    Blank before → Blank blank → Blank after →
      ListText [] (before ++ '[' :: blank ++ [']'] ++ after)
  | items {items : List ValueText} {before text after : List Char} :
    Blank before → ItemsText items text → Blank after →
      ListText items (before ++ '[' :: text ++ [']'] ++ after)

/-! ## Members -/

/-- A key that is none of the known ones. -/
abbrev UnknownKey := { key : String // ∀ field : Field, key ≠ field.key }

/-- A member of a stored setup, as far as it is kept. -/
inductive Member where
  /-- The chip. -/
  | chip (chip : Chip)
  /-- The strength. -/
  | strength (strength : Strength)
  /-- Any other member. -/
  | other (key : UnknownKey)

namespace Member

/-- The known field that a member gives. -/
def field? : Member → Option Field
  | chip _ => some .chip
  | strength _ => some .strength
  | other _ => none

/-- The chip that a member gives. -/
def chip? : Member → Option Chip
  | chip c => some c
  | _ => none

/-- The strength that a member gives. -/
def strength? : Member → Option Strength
  | strength s => some s
  | _ => none

/-- Both fields of a setup, in the order in which they are written. -/
def ofSetup (setup : Setup) : List Member := [chip setup.chip, strength setup.strength]

theorem field?_of_chip? (member : Member) (c : Chip) (h : member.chip? = some c) :
    member.field? = some .chip := by
  cases member with
  | chip => rfl
  | strength | other => cases h

theorem field?_of_strength? (member : Member) (s : Strength) (h : member.strength? = some s) :
    member.field? = some .strength := by
  cases member with
  | strength => rfl
  | chip | other => cases h

end Member

theorem Field.ofKey?_key (field : Field) : Field.ofKey? field.key = some field := by
  cases field <;> decide

theorem Field.eq_key_of_ofKey? {key : String} {field : Field}
    (h : Field.ofKey? key = some field) : key = field.key := by
  rw [Field.ofKey?] at h
  split at h
  · next hkey => cases h; exact hkey
  · split at h
    · next hkey => cases h; exact hkey
    · cases h

theorem UnknownKey.ofKey?_eq_none (key : UnknownKey) : Field.ofKey? key.val = none := by
  rw [Field.ofKey?, if_neg (key.property .chip), if_neg (key.property .strength)]

/-! ## What members give -/

/-- The known members. -/
def known (members : List Member) : List Member := members.filter fun m => m.field?.isSome

/-- No known field is given twice. -/
def AtMostOnce (members : List Member) : Prop := (members.filterMap Member.field?).Nodup

instance (members : List Member) : Decidable (AtMostOnce members) :=
  inferInstanceAs (Decidable (members.filterMap Member.field?).Nodup)

/-- The setup that members give: an average 6581 where they say nothing. -/
def setupOf (members : List Member) : Setup where
  chip := (members.findSome? Member.chip?).getD .mos6581
  strength := (members.findSome? Member.strength?).getD .average

variable {members others : List Member}

/-- Unknown members give no field. -/
theorem filterMap_field?_known (members : List Member) :
    (known members).filterMap Member.field? = members.filterMap Member.field? := by
  rw [known, List.filterMap_filter]
  congr 1
  funext m
  cases m <;> rfl

theorem AtMostOnce.of_perm (h : AtMostOnce members)
    (hperm : (known members).Perm (known others)) : AtMostOnce others := by
  rw [AtMostOnce, ← filterMap_field?_known] at h ⊢
  exact (hperm.filterMap Member.field?).nodup_iff.mp h

/-- The first member leaves the rest without its field. -/
theorem AtMostOnce.tail {member : Member} (h : AtMostOnce (member :: members)) :
    AtMostOnce members ∧ ∀ field, member.field? = some field →
      field ∉ members.filterMap Member.field? := by
  unfold AtMostOnce at h
  rw [List.filterMap_cons] at h
  cases hfield : member.field? with
  | none =>
    rw [hfield] at h
    exact ⟨h, nofun⟩
  | some field =>
    rw [hfield] at h
    obtain ⟨hnew, hrest⟩ := List.nodup_cons.mp h
    refine ⟨hrest, fun given hgiven => ?_⟩
    cases hgiven
    exact hnew

/-- Where no field is given twice, what is found for a field is what any of the members gives. -/
theorem findSome?_eq_some_iff {α : Type} {get : Member → Option α} {field : Field}
    (hget : ∀ m a, get m = some a → m.field? = some field) (h : AtMostOnce members) {a : α} :
    members.findSome? get = some a ↔ ∃ m ∈ members, get m = some a := by
  refine ⟨List.exists_of_findSome?_eq_some, ?_⟩
  rintro ⟨m, hm, hma⟩
  induction members with
  | nil => cases hm
  | cons first rest ih =>
    obtain ⟨hrest, hnew⟩ := h.tail
    rw [List.findSome?_cons]
    rcases List.mem_cons.mp hm with rfl | hm
    · rw [hma]
    · cases hfirst : get first with
      | none => exact ih hrest hm
      | some b =>
        have hagain := List.mem_filterMap.mpr ⟨m, hm, hget m a hma⟩
        exact absurd hagain (hnew field (hget first b hfirst))

/-- What gives a field is known. -/
theorem exists_mem_known {α : Type} {get : Member → Option α} {field : Field}
    (hget : ∀ m a, get m = some a → m.field? = some field) (members : List Member) (a : α) :
    (∃ m ∈ known members, get m = some a) ↔ ∃ m ∈ members, get m = some a := by
  simp only [known, List.mem_filter]
  refine exists_congr fun m => ⟨fun ⟨⟨hm, _⟩, hma⟩ => ⟨hm, hma⟩, fun ⟨hm, hma⟩ => ⟨⟨hm, ?_⟩, hma⟩⟩
  rw [hget m a hma, Option.isSome_some]

/-- What is found for a field depends on the known members only, and not on their order. -/
theorem findSome?_eq_of_perm {α : Type} {get : Member → Option α} {field : Field}
    (hget : ∀ m a, get m = some a → m.field? = some field) (h : AtMostOnce members)
    (hperm : (known members).Perm (known others)) :
    members.findSome? get = others.findSome? get := by
  refine Option.ext fun a => ?_
  rw [findSome?_eq_some_iff hget h, findSome?_eq_some_iff hget (h.of_perm hperm),
    ← exists_mem_known hget members, ← exists_mem_known hget others]
  simp only [hperm.mem_iff]

theorem setupOf_eq_of_perm (h : AtMostOnce members)
    (hperm : (known members).Perm (known others)) : setupOf members = setupOf others := by
  rw [setupOf, setupOf, findSome?_eq_of_perm Member.field?_of_chip? h hperm,
    findSome?_eq_of_perm Member.field?_of_strength? h hperm]

theorem setupOf_ofSetup (setup : Setup) : setupOf (Member.ofSetup setup) = setup := rfl

theorem known_ofSetup (setup : Setup) : known (Member.ofSetup setup) = Member.ofSetup setup := rfl

theorem atMostOnce_ofSetup (setup : Setup) : AtMostOnce (Member.ofSetup setup) := by
  change [Field.chip, Field.strength].Nodup
  decide

/-! ## The entries of members -/

/-- The texts of a name: between quotes, or as the only key of an object whose value is null. -/
inductive NameText (name : String) : List Char → Prop
  | text {body : List Char} : Spells body name.toList → NameText name (inQuotes body)
  | key {before body after space last : List Char} :
    Blank before → Spells body name.toList → Blank after → Blank space → Blank last →
      NameText name ('\x7b' :: before ++ inQuotes body ++ after ++ ':' :: space ++
        ['n', 'u', 'l', 'l'] ++ last ++ ['\x7d'])

/-- The texts of a name with blanks around it. -/
inductive PaddedName (name : String) : List Char → Prop
  | padded {before text after : List Char} : Blank before → NameText name text → Blank after →
    PaddedName name (before ++ text ++ after)

/-- The text of a name is that of a value. -/
theorem PaddedName.valid {name : String} {text : List Char} (h : PaddedName name text) :
    Phrase .padded text := by
  obtain ⟨hbefore, hname, hafter⟩ := h
  refine .padded hbefore ?_ hafter
  cases hname with
  | text hbody => exact .text hbody.body
  | @key before body after space last hbefore hbody hafter hspace hlast =>
    have hentry := Phrase.entry hbefore hbody.body hafter (.padded hspace .null hlast)
    simpa using Phrase.object (.lastMember hentry)

/-- The entries of a member. An unknown one may have any value. -/
inductive Gives : Entry → Member → Prop
  | chip {chip : Chip} {value : ValueText} :
    PaddedName chip.key value.text.toList → Gives ⟨Field.chip.key, value⟩ (.chip chip)
  | strength {strength : Strength} {value : ValueText} :
    PaddedName strength.key value.text.toList →
      Gives ⟨Field.strength.key, value⟩ (.strength strength)
  | other (key : UnknownKey) (value : ValueText) : Gives ⟨key.val, value⟩ (.other key)

/-- The texts of an object whose entries give these members, in this order. -/
def ObjectOf (members : List Member) (text : List Char) : Prop :=
  ∃ entries, ObjectText entries text ∧ List.Forall₂ Gives entries members

end SidVoice.Json
