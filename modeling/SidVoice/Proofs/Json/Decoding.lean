import SidVoice.Proofs.Json.Running

/-!
# Decoding a stored setup

What an object is decoded as depends on its known members only, not on their order, on unknown
members or on how any of them are written. A list is decoded as the object that gives the same
values in the same order, whatever values they are.

Both hold of every codec that keeps the laws. How an object that repeats a known field is rejected
is left to the codec.
-/

namespace SidVoice.Json

open Grammar

variable {ε : Type}

/-- Decoding depends on the known members only. An object that gives each known field at most once
is decoded as the given fields with defaults for the others, and another one with the same known
members in any order is decoded the same. Unknown entries may come and go wherever they stand, also
in an object that is rejected. A setup is decoded from what is written for it, and from every text
that has the members of what is written, in any order and among any unknown ones. -/
theorem Codec.setup_members (codec : Codec ε) (hobjects : codec.ObjectLaws)
    (hnames : codec.NameLaws) (hwrites : codec.WritesMembers) :
    (∀ (members : List Member) (text : String), ObjectOf members text.toList →
      AtMostOnce members → codec.setup text = .ok (setupOf members)) ∧
    (∀ (members others : List Member) (text changed : String), ObjectOf members text.toList →
      ObjectOf others changed.toList → AtMostOnce members →
      (known members).Perm (known others) → codec.setup changed = codec.setup text) ∧
    (∀ (entries others : List Entry) (text changed : String), ObjectText entries text.toList →
      ObjectText others changed.toList →
      entries.filter Entry.isKnown = others.filter Entry.isKnown →
      codec.setup changed = codec.setup text) ∧
    ∀ setup : Setup, codec.setup (codec.write setup) = .ok setup ∧
      ∀ (members : List Member) (text : String), ObjectOf members text.toList →
        (known members).Perm (Member.ofSetup setup) → codec.setup text = .ok setup := by
  have hread {members : List Member} {text : String} (htext : ObjectOf members text.toList)
      (honce : AtMostOnce members) : codec.setup text = .ok (setupOf members) :=
    Codec.setup_of_objectOf hobjects hnames htext honce
  refine ⟨fun _ _ => hread, ?_, fun _ _ _ _ => Codec.setup_eq_of_known hobjects, fun setup => ?_⟩
  · intro members others text changed htext hchanged honce hperm
    rw [hread htext honce, hread hchanged (honce.of_perm hperm), setupOf_eq_of_perm honce hperm]
  · refine ⟨hread (hwrites setup) (atMostOnce_ofSetup setup), ?_⟩
    intro members text htext hperm
    rw [← known_ofSetup setup] at hperm
    have honce : AtMostOnce members := (atMostOnce_ofSetup setup).of_perm hperm.symm
    rw [hread htext honce, setupOf_eq_of_perm honce hperm, setupOf_ofSetup]

/-- The key of the chip with its first letter escaped. -/
theorem spells_escapedChipKey :
    Spells ('\\' :: 'u' :: ['0', '0', '6', '3'] ++ "hip_model".toList)
      Field.chip.key.toList := by
  have hdigits : CodeUnit ['0', '0', '6', '3'] 'c'.toNat :=
    .digits (a := 0) (b := 0) (c := 6) (d := 3) ⟨by decide, by decide⟩ ⟨by decide, by decide⟩
      ⟨by decide, by decide⟩ ⟨by decide, by decide⟩
  exact .code hdigits (.self (by decide))

/-- A list with a bracket inside a text, and a blank after it. -/
def bracketValue : ValueText where
  text := "[\"]\"] "
  valid := by
    have hspace : Blank [' '] := by simp [Blank]
    have hitem : Phrase .padded _ :=
      .padded blank_nil (.text (.plain (c := ']') (by decide) .nil)) blank_nil
    exact .padded blank_nil (.list (.lastItem hitem)) hspace

/-- A name of a chip as a key. -/
theorem paddedName_keyedChip : PaddedName "mos8580" "\x7b\"mos8580\":null\x7d".toList :=
  .padded blank_nil (.key blank_nil (.self (by decide)) blank_nil blank_nil blank_nil) blank_nil

/-- A weak 8580 with the chip last, an escape in its key, its name as a key, and an unknown member
between the two. -/
def mixedText : String :=
  "\x7b\"combined_waveforms\":\"weak\",\"a\":[\"]\"] ," ++
    "\"\\u0063hip_model\":\x7b\"mos8580\":null\x7d\x7d"

/-- The unknown key of `mixedText`. -/
def mixedKey : UnknownKey := ⟨"a", fun field => by cases field <;> decide⟩

/-- The members of `mixedText`. -/
def mixedMembers : List Member := [.strength .weak, .other mixedKey, .chip .mos8580]

theorem objectOf_mixedText : ObjectOf mixedMembers mixedText.toList := by
  have hunknown : Spells "a".toList mixedKey.val.toList := .self (by decide)
  have hentries : EntriesText [⟨Field.strength.key, strengthValue .weak⟩,
      ⟨mixedKey.val, bracketValue⟩, ⟨Field.chip.key, ⟨_, paddedName_keyedChip.valid⟩⟩] _ :=
    .cons (.entry blank_nil (spells_key .strength) blank_nil)
      (.cons (.entry blank_nil hunknown blank_nil)
        (.last (.entry blank_nil spells_escapedChipKey blank_nil)))
  have hobject : ObjectText _ mixedText.toList := .entries blank_nil hentries blank_nil
  exact ⟨_, hobject, .cons (.strength (paddedName_writeStrength .weak))
    (.cons (.other mixedKey bracketValue) (.cons (.chip paddedName_keyedChip) .nil))⟩

/-- The readers decode `mixedText` as they decode what is written for its setup. -/
theorem setup_members_mixedText :
    readers.ObjectLaws ∧ readers.NameLaws ∧ readers.WritesMembers ∧
      ObjectOf mixedMembers mixedText.toList ∧ AtMostOnce mixedMembers ∧
      readers.setup mixedText = .ok ⟨.mos8580, .weak⟩ ∧
      (known mixedMembers).Perm (Member.ofSetup ⟨.mos8580, .weak⟩) ∧
      readers.setup mixedText = readers.setup (readers.write ⟨.mos8580, .weak⟩) := by
  obtain ⟨hmembers, hperm, -, hwritten⟩ :=
    readers.setup_members readers_objectLaws readers_nameLaws readers_writesMembers
  have honce : AtMostOnce mixedMembers := by decide
  have hknown : (known mixedMembers).Perm (Member.ofSetup ⟨.mos8580, .weak⟩) := .swap _ _ _
  exact ⟨readers_objectLaws, readers_nameLaws, readers_writesMembers, objectOf_mixedText, honce,
    hmembers _ _ objectOf_mixedText honce, hknown,
    hperm _ _ _ _ (readers_writesMembers _) objectOf_mixedText (atMostOnce_ofSetup _) hknown.symm⟩

/-- A weak strength as a key, after a blank. -/
def paddedWeak : ValueText where
  text := " \x7b\"weak\":null\x7d"
  valid := by
    have hspace : Blank [' '] := by simp [Blank]
    have hname : NameText "weak" "\x7b\"weak\":null\x7d".toList :=
      .key blank_nil (.self (by decide)) blank_nil blank_nil blank_nil
    have hpadded : PaddedName "weak" " \x7b\"weak\":null\x7d".toList :=
      .padded hspace hname blank_nil
    exact hpadded.valid

/-- A chip as a key whose value is not null. -/
def misfitChip : ValueText where
  text := "\x7b\"mos8580\":5\x7d"
  valid := by
    have hname : Body "mos8580".toList := (Spells.self (by decide)).body
    have hdigit : Numeral ([] ++ (['5'] ++ ([] ++ []))) :=
      .parts (.inl rfl) (.digits rfl (by decide) (List.forall_mem_nil _)) .none .none
    have hfive : Phrase .value ['5'] := .number hdigit
    have hentry : Phrase .entry _ :=
      .entry blank_nil hname blank_nil (.padded blank_nil hfive blank_nil)
    exact .padded blank_nil (.object (.lastMember hentry)) blank_nil

/-- The null value. -/
def nullValue : ValueText := ⟨"null", .padded blank_nil .null blank_nil⟩

/-- A weak 8580 as an object with an escape in a key and an unknown entry. -/
def keyedText : String :=
  "\x7b\"\\u0063hip_model\":\"mos8580\",\"a\":null," ++
    "\"combined_waveforms\": \x7b\"weak\":null\x7d\x7d"

end SidVoice.Json
