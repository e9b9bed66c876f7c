import SidVoice.Proofs.Json.Members

/-!
# Codecs of stored setups

What is stored is read and written by a codec. It has two sides: the format, which finds the
parts of a text, and the decoders that are derived from the types of what is stored, to which the
format gives those parts. Neither belongs to this library, so both are parameters here, and what
is relied on is stated as laws, each the documented behaviour of one side.

The laws of objects and lists are about one part at a time. How much of an object an outcome
depends on is derived from them, by induction on its entries.

An error stands for what it says apart from its place in the text: its kind and its message. The
laws never compare places, and they leave open how a text that breaks the grammar is rejected.
-/

namespace SidVoice.Json

/-- A codec of chips, strengths and setups, with errors that say `ε` apart from their place. -/
structure Codec (ε : Type) where
  /-- Decode a text as a chip. -/
  chip : String → Except ε Chip
  /-- Decode a text as a strength. -/
  strength : String → Except ε Strength
  /-- Decode a text as a setup. -/
  setup : String → Except ε Setup
  /-- Decode a setup from the entries of an object, after those that gave these fields. -/
  ofEntries : Fields → List Entry → Except ε Setup
  /-- Decode a setup from the elements of a list, and leave the elements that are not taken. -/
  ofItems : List ValueText → Except ε (Setup × List ValueText)
  /-- The text of a setup. -/
  write : Setup → String

namespace Codec

variable {ε : Type}

/-- How an object is decoded as a setup. -/
structure ObjectLaws (codec : Codec ε) : Prop where
  /-- The format gives the decoder the entries of the object in their order, with the escapes of
  the keys decoded, and the blanks between tokens are of no account. -/
  object : ∀ {entries : List Entry} {text : String}, ObjectText entries text.toList →
    codec.setup text = codec.ofEntries {} entries
  /-- The decoder fills in fields that are missing from the default setup. -/
  entries_nil : ∀ fields, codec.ofEntries fields [] = .ok fields.toSetup
  /-- The decoder skips a field that it does not know: nothing denies such fields. -/
  entries_other : ∀ fields entry rest, Field.ofKey? entry.key = none →
    codec.ofEntries fields (entry :: rest) = codec.ofEntries fields rest
  /-- The decoder rejects a field that it has decoded before, when it has read the key. -/
  entries_repeated : ∀ fields field, fields.has field = true → ∃ e, ∀ value rest,
    codec.ofEntries fields (⟨field.key, value⟩ :: rest) = .error e
  /-- The first value for the chip is decoded as a chip, as it is from a text of its own. -/
  entries_chip : ∀ fields value rest, fields.has .chip = false →
    codec.ofEntries fields (⟨Field.chip.key, value⟩ :: rest) =
      (codec.chip value.text).bind fun c => codec.ofEntries { fields with chip := some c } rest
  /-- The first value for the strength is decoded as a strength, as from a text of its own. -/
  entries_strength : ∀ fields value rest, fields.has .strength = false →
    codec.ofEntries fields (⟨Field.strength.key, value⟩ :: rest) =
      (codec.strength value.text).bind fun s =>
        codec.ofEntries { fields with strength := some s } rest

/-- How a list is decoded as a setup. -/
structure ListLaws (codec : Codec ε) : Prop where
  /-- The format accepts a list that the decoder has taken to its end. -/
  list_taken : ∀ {items : List ValueText} {text : String} {setup : Setup},
    ListText items text.toList → codec.ofItems items = .ok (setup, []) →
      codec.setup text = .ok setup
  /-- The format rejects a list of which the decoder has left elements. -/
  list_left : ∀ {items rest : List ValueText} {text : String} {setup : Setup},
    ListText items text.toList → codec.ofItems items = .ok (setup, rest) → rest ≠ [] →
      ∃ e, codec.setup text = .error e
  /-- The format hands on the error of the decoder. -/
  list_failed : ∀ {items : List ValueText} {text : String} {e : ε},
    ListText items text.toList → codec.ofItems items = .error e → codec.setup text = .error e
  /-- The decoder takes the default setup for a list without elements. -/
  items_nil : codec.ofItems [] = .ok (default, [])
  /-- The decoder takes the first element for the chip, and the default strength. -/
  items_one : ∀ a, codec.ofItems [a] =
    (codec.chip a.text).bind fun c => .ok (⟨c, default⟩, [])
  /-- The decoder takes the second element for the strength, and no more. -/
  items_more : ∀ a b rest, codec.ofItems (a :: b :: rest) =
    (codec.chip a.text).bind fun c =>
      (codec.strength b.text).bind fun s => .ok (⟨c, s⟩, rest)

/-- How names are decoded. -/
structure NameLaws (codec : Codec ε) : Prop where
  /-- A chip is stored as its name in small letters. -/
  chip : ∀ {chip : Chip} {text : String}, PaddedName chip.key text.toList →
    codec.chip text = .ok chip
  /-- A strength is stored as its name in small letters. -/
  strength : ∀ {strength : Strength} {text : String}, PaddedName strength.key text.toList →
    codec.strength text = .ok strength

/-- A setup is written as an object with both its fields in their order. -/
def WritesMembers (codec : Codec ε) : Prop :=
  ∀ setup, ObjectOf (Member.ofSetup setup) (codec.write setup).toList

end Codec

/-! ## The fields that members give -/

namespace Fields

/-- The fields that members give. -/
def of (members : List Member) : Fields :=
  ⟨members.findSome? Member.chip?, members.findSome? Member.strength?⟩

variable {members : List Member}

theorem toSetup_of (members : List Member) : (of members).toSetup = setupOf members := rfl

/-- A field has been read if one of the members gives it. -/
theorem has_of {field : Field} :
    (of members).has field = true ↔ field ∈ members.filterMap Member.field? := by
  rw [List.mem_filterMap]
  cases field with
  | chip =>
    refine List.findSome?_isSome_iff.trans (exists_congr fun m => and_congr_right fun _ => ?_)
    cases m <;> simp [Member.chip?, Member.field?]
  | strength =>
    refine List.findSome?_isSome_iff.trans (exists_congr fun m => and_congr_right fun _ => ?_)
    cases m <;> simp [Member.strength?, Member.field?]

/-- The next member's field has not been read. -/
theorem has_of_atMostOnce {member : Member} {rest : List Member} {field : Field}
    (h : AtMostOnce (members ++ member :: rest)) (hfield : member.field? = some field) :
    (of members).has field = false := by
  rw [← Bool.not_eq_true, has_of]
  intro hmem
  rw [AtMostOnce, List.filterMap_append, List.nodup_append'] at h
  refine h.2.2 hmem (List.mem_filterMap.mpr ⟨member, List.mem_cons_self, hfield⟩)

/-- A chip that has not been read is added. -/
theorem of_append_chip (h : (of members).has .chip = false) (chip : Chip) :
    of (members ++ [.chip chip]) = { of members with chip := some chip } := by
  have hnone : members.findSome? Member.chip? = none :=
    Option.isNone_iff_eq_none.mp (Option.isSome_eq_false_iff.mp h)
  simp [of, List.findSome?_append, hnone, Member.chip?, Member.strength?]

/-- A strength that has not been read is added. -/
theorem of_append_strength (h : (of members).has .strength = false) (strength : Strength) :
    of (members ++ [.strength strength]) = { of members with strength := some strength } := by
  have hnone : members.findSome? Member.strength? = none :=
    Option.isNone_iff_eq_none.mp (Option.isSome_eq_false_iff.mp h)
  simp [of, List.findSome?_append, hnone, Member.chip?, Member.strength?]

/-- An unknown member adds nothing. -/
theorem of_append_other (members : List Member) (key : UnknownKey) :
    of (members ++ [.other key]) = of members := by
  simp [of, List.findSome?_append, Member.chip?, Member.strength?]

end Fields

/-! ## Objects -/

namespace Codec

variable {ε : Type} {codec : Codec ε}

section Entries

variable (hobjects : codec.ObjectLaws)

include hobjects

/-- Entries that give each known field at most once are decoded as what they and the members
before them give. -/
theorem ofEntries_gives (hnames : codec.NameLaws) {entries : List Entry} {members : List Member}
    (h : List.Forall₂ Gives entries members) (done : List Member)
    (honce : AtMostOnce (done ++ members)) :
    codec.ofEntries (.of done) entries = .ok (setupOf (done ++ members)) := by
  -- Along the entries, with the members before them in `done`.
  induction h generalizing done with
  | nil => rw [hobjects.entries_nil, Fields.toSetup_of, List.append_nil]
  | @cons entry member entries members hgives _ ih =>
    have hnew : ∀ field, member.field? = some field → (Fields.of done).has field = false :=
      fun _ => Fields.has_of_atMostOnce honce
    rw [List.append_cons] at honce ⊢
    have hrest := ih (done ++ [member]) honce
    cases hgives with
    | chip hname =>
      rw [hobjects.entries_chip _ _ _ (hnew .chip rfl), hnames.chip hname, Except.bind,
        ← Fields.of_append_chip (hnew .chip rfl), hrest]
    | strength hname =>
      rw [hobjects.entries_strength _ _ _ (hnew .strength rfl), hnames.strength hname,
        Except.bind, ← Fields.of_append_strength (hnew .strength rfl), hrest]
    | other key value =>
      rw [hobjects.entries_other _ _ _ key.ofKey?_eq_none, ← Fields.of_append_other done key, hrest]

/-- An object that gives each known field at most once is decoded as what its members give. -/
theorem setup_of_objectOf (hnames : codec.NameLaws) {members : List Member} {text : String}
    (h : ObjectOf members text.toList) (honce : AtMostOnce members) :
    codec.setup text = .ok (setupOf members) := by
  obtain ⟨entries, htext, hgives⟩ := h
  rw [hobjects.object htext]
  exact ofEntries_gives hobjects hnames hgives [] honce

/-- Unknown entries are of no account, whether or not the others are decoded. -/
theorem ofEntries_known (fields : Fields) (entries : List Entry) :
    codec.ofEntries fields entries = codec.ofEntries fields (entries.filter Entry.isKnown) := by
  induction entries generalizing fields with
  | nil => rfl
  | cons entry entries ih =>
    obtain ⟨key, value⟩ := entry
    rw [List.filter_cons]
    cases hkey : Field.ofKey? key with
    | none =>
      have hunknown : Entry.isKnown ⟨key, value⟩ = false := by rw [Entry.isKnown, hkey]; rfl
      rw [hobjects.entries_other _ _ _ hkey, hunknown]
      exact ih fields
    | some field =>
      have hknown : Entry.isKnown ⟨key, value⟩ = true := by rw [Entry.isKnown, hkey]; rfl
      obtain rfl := Field.eq_key_of_ofKey? hkey
      rw [if_pos hknown]
      cases hhas : fields.has field with
      | true =>
        obtain ⟨e, he⟩ := hobjects.entries_repeated fields field hhas
        rw [he, he]
      | false =>
        cases field with
        | chip =>
          rw [hobjects.entries_chip _ _ _ hhas, hobjects.entries_chip _ _ _ hhas]
          exact congrArg _ (funext fun c => ih _)
        | strength =>
          rw [hobjects.entries_strength _ _ _ hhas, hobjects.entries_strength _ _ _ hhas]
          exact congrArg _ (funext fun s => ih _)

/-- Objects with the same known entries are decoded alike. -/
theorem setup_eq_of_known {entries others : List Entry} {text changed : String}
    (htext : ObjectText entries text.toList) (hchanged : ObjectText others changed.toList)
    (hknown : entries.filter Entry.isKnown = others.filter Entry.isKnown) :
    codec.setup changed = codec.setup text := by
  rw [hobjects.object htext, hobjects.object hchanged, ofEntries_known hobjects _ entries,
    ofEntries_known hobjects _ others, hknown]

end Entries

/-! ## Lists -/

section Items

variable (hlists : codec.ListLaws) {values : List ValueText} {list : String}

include hlists

/-- Up to two elements are decoded as the entries of the fields in their order, and none is left. -/
theorem ofItems_eq (hobjects : codec.ObjectLaws) (hlength : values.length ≤ 2) :
    codec.ofItems values =
      (codec.ofEntries {} (entriesOf values)).map fun setup => (setup, []) := by
  match values, hlength with
  | [], _ =>
    rw [hlists.items_nil, entriesOf, List.zipWith_nil_right, hobjects.entries_nil]
    rfl
  | [a], _ =>
    rw [hlists.items_one, entriesOf, List.zipWith_cons_cons, List.zipWith_nil_right,
      hobjects.entries_chip _ _ _ rfl]
    cases codec.chip a.text with
    | error e => rfl
    | ok c =>
      simp only [Except.bind, hobjects.entries_nil]
      rfl
  | [a, b], _ =>
    rw [hlists.items_more, entriesOf, List.zipWith_cons_cons, List.zipWith_cons_cons,
      List.zipWith_nil_right, hobjects.entries_chip _ _ _ rfl]
    cases codec.chip a.text with
    | error e => rfl
    | ok c =>
      simp only [Except.bind]
      rw [hobjects.entries_strength _ _ _ rfl]
      cases codec.strength b.text with
      | error e => rfl
      | ok s =>
        simp only [Except.bind, hobjects.entries_nil]
        rfl

/-- A list whose elements the decoder takes to the end has the outcome of the decoder. -/
theorem setup_of_ofItems {outcome : Except ε Setup} (hlist : ListText values list.toList)
    (h : codec.ofItems values = outcome.map fun setup => (setup, [])) :
    codec.setup list = outcome := by
  cases outcome with
  | error e => exact hlists.list_failed hlist h
  | ok setup => exact hlists.list_taken hlist h

/-- More elements than fields are an error: of the first value that is no name, or of the format. -/
theorem setup_of_length (hlist : ListText values list.toList) (hlength : 2 < values.length) :
    ∃ e, codec.setup list = .error e := by
  match values, hlength with
  | a :: b :: c :: rest, _ =>
    have hitems := hlists.items_more a b (c :: rest)
    cases hchip : codec.chip a.text with
    | error e =>
      rw [hchip] at hitems
      exact ⟨e, hlists.list_failed hlist hitems⟩
    | ok chip =>
      cases hstrength : codec.strength b.text with
      | error e =>
        rw [hchip, Except.bind, hstrength] at hitems
        exact ⟨e, hlists.list_failed hlist hitems⟩
      | ok strength =>
        rw [hchip, Except.bind, hstrength] at hitems
        exact hlists.list_left hlist hitems (List.cons_ne_nil c rest)

end Items

end Codec

end SidVoice.Json
