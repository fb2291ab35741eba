import SaltyRtcServer.Common
import SaltyRtcServer.Concatenation
import SaltyRtcServer.PythonSlice

/-!
# Strings with a tag for each character

A `SpliceUserString` keeps the taints and the flags of its characters in three lists
beside the text.  Every operation has to treat the lists as it treats the text, for
each kind of operand and of index.
-/

namespace SaltyRtcServer

/-- An attribute of a `SpliceUserString`: a list, or the single item that an integer index
leaves, which is an integer also for a flag. -/
inductive CharacterTags (Item : Type)
  | each (items : List Item)
  | single (value : Int)
  deriving DecidableEq

inductive UserStringError
  | typeError
  | indexError
  | valueError
  | splice (error : SpliceError)
  deriving DecidableEq

/-- The attributes of a `SpliceUserString`. -/
structure SpliceUserString where
  data : List Char
  taints : CharacterTags Nat
  synthesized : CharacterTags Bool
  trusted : CharacterTags Bool
  deriving DecidableEq

/-- The argument of `[]`. -/
inductive Subscript
  | index (index : Int)
  | slice (start stop step : Option Int)
  deriving DecidableEq

namespace CharacterTags

variable {Item : Type}

/-- `+` of two attributes. -/
def add : CharacterTags Item → CharacterTags Item → Except UserStringError (CharacterTags Item)
  | .each items, .each others => .ok (.each (items ++ others))
  | .single value, .single other => .ok (.single (value + other))
  | _, _ => .error .typeError

/-- `attribute[index]`, for items that `toInt` makes integers of. -/
def subscript (toInt : Item → Int) :
    Subscript → CharacterTags Item → Except UserStringError (CharacterTags Item)
  | .index index, .each items =>
      match PythonSlice.get? items index with
      | some item => .ok (.single (toInt item))
      | none => .error .indexError
  | .slice start stop step, .each items =>
      match PythonSlice.slice items start stop step with
      | some items => .ok (.each items)
      | none => .error .valueError
  | _, .single _ => .error .typeError

/-- The loop over an attribute. -/
def reduce (combine : Item → Item → Item) (start : Item) :
    CharacterTags Item → Except UserStringError Item
  | .each items => .ok (items.foldl combine start)
  | .single _ => .error .typeError

end CharacterTags

/-- A value that is no `SpliceUserString`, with its text: a plain one, or a Splice value, which has
a `+` of its own if it is a sequence. -/
inductive StringValue
  | plain (text : List Char)
  | splice (text : List Char) (tags : Tags) (sequence : Bool)
  deriving DecidableEq

/-- What a `SpliceUserString` is constructed from or joined with. -/
inductive StringOperand
  | value (value : StringValue)
  | userString (string : SpliceUserString)
  deriving DecidableEq

namespace SpliceUserString

/-- The same tags for all characters of a text. -/
def uniform (text : List Char) (tags : Tags) : SpliceUserString where
  data := text
  taints := .each (List.replicate text.length tags.taints)
  synthesized := .each (List.replicate text.length tags.synthesized)
  trusted := .each (List.replicate text.length tags.trusted)

/-- The tags of plain characters. -/
def plainTags : Tags := ⟨true, false, emptyTaint⟩

/-- `SpliceUserString.__init__`. -/
def construct : StringOperand → SpliceUserString
  | .userString string => string
  | .value (.splice text tags _) => uniform text tags
  | .value (.plain text) => uniform text plainTags

/-- `str(value)` of a Splice value is the result of a decorated method. -/
def strTags (tags : Tags) : Tags := Tags.returned [.splice tags]

/-- The operand as a `SpliceUserString`: `str` of a value, with a list of tags for it. -/
def ofOperand : StringOperand → SpliceUserString
  | .userString string => string
  | .value (.splice text tags _) => uniform text (strTags tags)
  | .value (.plain text) => uniform text plainTags

/-- The text and the lists of two strings joined. -/
def join (one other : SpliceUserString) : Except UserStringError SpliceUserString := do
  let taints ← one.taints.add other.taints
  let synthesized ← one.synthesized.add other.synthesized
  let trusted ← one.trusted.add other.trusted
  return ⟨one.data ++ other.data, taints, synthesized, trusted⟩

/-- `SpliceUserString.__add__`. -/
def add (string : SpliceUserString) (other : StringOperand) :
    Except UserStringError SpliceUserString :=
  string.join (ofOperand other)

/-- `SpliceUserString.__radd__`. -/
def radd (string : SpliceUserString) (other : StringOperand) :
    Except UserStringError SpliceUserString :=
  (ofOperand other).join string

/-- `other + string`: a Splice sequence calls its own `__add__`, which takes no
`SpliceUserString`. -/
def addRight (other : StringOperand) (string : SpliceUserString) :
    Except UserStringError SpliceUserString :=
  match other with
  | .userString other => other.add (.userString string)
  | .value (.splice _ _ true) => .error .typeError
  | .value _ => string.radd other

/-- `data[index]`. -/
def subscriptText (text : List Char) : Subscript → Except UserStringError (List Char)
  | .index index =>
      match PythonSlice.get? text index with
      | some char => .ok [char]
      | none => .error .indexError
  | .slice start stop step =>
      match PythonSlice.slice text start stop step with
      | some text => .ok text
      | none => .error .valueError

/-- `SpliceUserString.__getitem__`. -/
def getItem (string : SpliceUserString) (subscript : Subscript) :
    Except UserStringError SpliceUserString := do
  let data ← subscriptText string.data subscript
  let taints ← CharacterTags.subscript Int.ofNat subscript string.taints
  let synthesized ← CharacterTags.subscript (fun flag => flag.toNat) subscript string.synthesized
  let trusted ← CharacterTags.subscript (fun flag => flag.toNat) subscript string.trusted
  return ⟨data, taints, synthesized, trusted⟩

/-- `SpliceUserString.__str__`. -/
def str (string : SpliceUserString) : Except UserStringError (List Char × Tags) := do
  let taints ← string.taints.reduce unionTaint emptyTaint
  let synthesized ← string.synthesized.reduce or false
  let trusted ← string.trusted.reduce and true
  match Tags.construct [.other] (some trusted) (some synthesized) (some taints) with
  | .ok tags => return (string.data, tags)
  | .error error => .error (.splice error)

end SpliceUserString

/-- How a `SpliceUserString` is obtained. -/
inductive UserStringExpression
  | construct (value : StringValue)
  | copy (string : UserStringExpression)
  | add (left right : UserStringExpression)
  | addValue (left : UserStringExpression) (value : StringValue)
  | valueAdd (value : StringValue) (right : UserStringExpression)
  | subscript (string : UserStringExpression) (subscript : Subscript)
  deriving DecidableEq

/-- A character with the tags of the value that it was copied from, and whether the value was an
operand of `+`. -/
structure SourceCharacter where
  char : Char
  tags : Tags
  added : Bool
  deriving DecidableEq

/-- The characters of a value. -/
def StringValue.characters (added : Bool) : StringValue → List SourceCharacter
  | .plain text => text.map fun char => ⟨char, SpliceUserString.plainTags, added⟩
  | .splice text tags _ => text.map fun char => ⟨char, tags, added⟩

namespace UserStringExpression

open SpliceUserString

def evaluate : UserStringExpression → Except UserStringError SpliceUserString
  | .construct value => .ok (SpliceUserString.construct (.value value))
  | .copy string =>
      string.evaluate.map fun string => SpliceUserString.construct (.userString string)
  | .add left right => do
      let left ← left.evaluate
      let right ← right.evaluate
      left.add (.userString right)
  | .addValue left value => do
      let left ← left.evaluate
      left.add (.value value)
  | .valueAdd value right => do
      let right ← right.evaluate
      right.addRight (.value value)
  | .subscript string place => do
      let string ← string.evaluate
      string.getItem place

/-- The characters that the string consists of. -/
def characters : UserStringExpression → List SourceCharacter
  | .construct value => value.characters false
  | .copy string => string.characters
  | .add left right => left.characters ++ right.characters
  | .addValue left value => left.characters ++ value.characters true
  | .valueAdd value right => value.characters true ++ right.characters
  | .subscript string (.index index) => (PythonSlice.get? string.characters index).toList
  | .subscript string (.slice start stop step) =>
      (PythonSlice.slice string.characters start stop step).getD []

/-- A string in it was indexed with an integer. -/
def hasIndex : UserStringExpression → Bool
  | .construct _ => false
  | .copy string => string.hasIndex
  | .add left right => left.hasIndex || right.hasIndex
  | .addValue left _ => left.hasIndex
  | .valueAdd _ right => right.hasIndex
  | .subscript string (.slice _ _ _) => string.hasIndex
  | .subscript _ (.index _) => true

/-- The lists of tags are those of the characters, and `str` has the taints of all of them. -/
structure KeepsTags (expression : UserStringExpression) (string : SpliceUserString) : Prop where
  data : string.data = expression.characters.map fun source => source.char
  taints : string.taints = .each (expression.characters.map fun source => source.tags.taints)
  synthesized :
    string.synthesized = .each (expression.characters.map fun source => source.tags.synthesized)
  trusted : string.trusted = .each (expression.characters.map fun source => source.tags.trusted)
  str : ∃ tags, string.str = .ok (string.data, tags) ∧
    tags.taints = Operand.taintsOf (expression.characters.map fun source => source.tags)

/-- There is no integer index, no character from a Splice operand of `+` that is both trusted and
synthesized, and the flags of all characters do not make the string trusted and synthesized. -/
structure TagsKept (expression : UserStringExpression) : Prop where
  noIndex : expression.hasIndex = false
  consistent : ∀ source ∈ expression.characters, source.added = true → source.tags.Consistent
  flags : ¬ ((∀ source ∈ expression.characters, source.tags.trusted = true) ∧
    ∃ source ∈ expression.characters, source.tags.synthesized = true)

end UserStringExpression

namespace SpliceUserString

variable {one other string : SpliceUserString} {characters others : List (Char × Tags)}

/-- The string with the tags of some characters. -/
def ofCharacters (characters : List (Char × Tags)) : SpliceUserString where
  data := characters.map Prod.fst
  taints := .each (characters.map fun character => character.2.taints)
  synthesized := .each (characters.map fun character => character.2.synthesized)
  trusted := .each (characters.map fun character => character.2.trusted)

theorem uniform_eq (text : List Char) (tags : Tags) :
    uniform text tags = ofCharacters (text.map fun char => (char, tags)) := by
  simp [uniform, ofCharacters, Function.comp_def, List.map_const']

theorem join_ofCharacters : (ofCharacters characters).join (ofCharacters others) =
    .ok (ofCharacters (characters ++ others)) := by
  simp only [ofCharacters, List.map_append]
  rfl

theorem taints_join (joined : one.join other = .ok string) :
    one.taints.add other.taints = .ok string.taints := by
  obtain ⟨taints, added, rest⟩ := exceptBind_ok joined
  obtain ⟨synthesized, _, rest⟩ := exceptBind_ok rest
  obtain ⟨trusted, _, rest⟩ := exceptBind_ok rest
  cases rest
  exact added

theorem taints_getItem {place : Subscript} (found : one.getItem place = .ok string) :
    CharacterTags.subscript Int.ofNat place one.taints = .ok string.taints := by
  obtain ⟨data, _, rest⟩ := exceptBind_ok found
  obtain ⟨taints, isTaints, rest⟩ := exceptBind_ok rest
  obtain ⟨synthesized, _, rest⟩ := exceptBind_ok rest
  obtain ⟨trusted, _, rest⟩ := exceptBind_ok rest
  cases rest
  exact isTaints

/-- A slice has the characters of the positions, with their tags. -/
theorem getItem_slice {start stop step : Option Int}
    (found : (ofCharacters characters).getItem (.slice start stop step) = .ok string) :
    string = ofCharacters ((PythonSlice.slice characters start stop step).getD []) := by
  simp only [getItem, subscriptText, ofCharacters, CharacterTags.subscript,
    PythonSlice.slice_map] at found
  cases sliced : PythonSlice.slice characters start stop step with
  | none =>
      rw [sliced] at found
      contradiction
  | some items =>
      rw [sliced] at found
      cases found
      rfl

theorem foldl_or (flags : List Bool) (start : Bool) :
    flags.foldl or start = (start || flags.any id) := by
  induction flags generalizing start with
  | nil => exact (Bool.or_false start).symm
  | cons flag rest ih => rw [List.foldl_cons, ih, List.any_cons, Bool.or_assoc, id]

theorem foldl_and (flags : List Bool) (start : Bool) :
    flags.foldl and start = (start && flags.all id) := by
  induction flags generalizing start with
  | nil => exact (Bool.and_true start).symm
  | cons flag rest ih => rw [List.foldl_cons, ih, List.all_cons, Bool.and_assoc, id]

/-- The characters make a string that is trusted and synthesized. -/
def Clash (characters : List (Char × Tags)) : Prop :=
  (∀ character ∈ characters, character.2.trusted = true) ∧
    ∃ character ∈ characters, character.2.synthesized = true

/-- `str` has the flags and the taints of all characters. -/
theorem str_ofCharacters : (ofCharacters characters).str =
    match Tags.construct [.other] (some (characters.all fun character => character.2.trusted))
        (some (characters.any fun character => character.2.synthesized))
        (some (Operand.taintsOf (characters.map Prod.snd))) with
    | .ok tags => .ok (characters.map Prod.fst, tags)
    | .error error => .error (.splice error) := by
  have taints : (characters.map fun character => character.2.taints).foldl unionTaint emptyTaint =
      Operand.taintsOf (characters.map Prod.snd) := by
    rw [Operand.taintsOf, List.foldl_map, List.foldl_map]
  have synthesized : (characters.map fun character => character.2.synthesized).foldl or false =
      characters.any fun character => character.2.synthesized := by
    rw [foldl_or, Bool.false_or, List.any_map]
    rfl
  have trusted : (characters.map fun character => character.2.trusted).foldl and true =
      characters.all fun character => character.2.trusted := by
    rw [foldl_and, Bool.true_and, List.all_map]
    rfl
  rw [← taints, ← synthesized, ← trusted]
  rfl

theorem str_eq_ok_iff :
    (∃ tags, (ofCharacters characters).str = .ok (characters.map Prod.fst, tags) ∧
      tags.taints = Operand.taintsOf (characters.map Prod.snd)) ↔ ¬ Clash characters := by
  have flags : (characters.all fun character => character.2.trusted) = true ∧
      (characters.any fun character => character.2.synthesized) = true ↔ Clash characters := by
    rw [List.all_eq_true, List.any_eq_true, Clash]
  rw [str_ofCharacters, Tags.construct_other]
  by_cases clash : Clash characters
  · rw [if_pos (flags.mpr clash)]
    simp [clash]
  · rw [if_neg (flags.not.mpr clash)]
    simp [clash]

/-- What every string looks like: an integer index leaves single tags, and otherwise the lists are
those of the characters. -/
structure Shaped (indexed : Bool) (characters : List (Char × Tags)) (string : SpliceUserString) :
    Prop where
  single : indexed = true → ∃ value, string.taints = .single value
  each : indexed = false → string = ofCharacters characters

variable {indexed otherIndexed : Bool}

theorem Shaped.of_characters (characters : List (Char × Tags)) :
    Shaped false characters (ofCharacters characters) :=
  ⟨nofun, fun _ => rfl⟩

theorem Shaped.taints_eq (shaped : Shaped indexed characters string)
    (notIndexed : indexed = false) :
    string.taints = .each (characters.map fun character => character.2.taints) := by
  rw [shaped.each notIndexed, ofCharacters]

/-- Single tags are joined with single tags only, and lists with lists. -/
theorem Shaped.join (shaped : Shaped indexed characters one)
    (otherShaped : Shaped otherIndexed others other) (joined : one.join other = .ok string) :
    Shaped (indexed || otherIndexed) (characters ++ others) string := by
  have taints := taints_join joined
  cases indexed with
  | false =>
      rw [shaped.taints_eq rfl] at taints
      cases otherIndexed with
      | false =>
          rw [shaped.each rfl, otherShaped.each rfl, join_ofCharacters] at joined
          cases joined
          exact Shaped.of_characters _
      | true =>
          obtain ⟨value, isSingle⟩ := otherShaped.single rfl
          rw [isSingle] at taints
          contradiction
  | true =>
      obtain ⟨value, isSingle⟩ := shaped.single rfl
      rw [isSingle] at taints
      cases otherIndexed with
      | false =>
          rw [otherShaped.taints_eq rfl] at taints
          contradiction
      | true =>
          obtain ⟨otherValue, isOther⟩ := otherShaped.single rfl
          rw [isOther] at taints
          exact ⟨fun _ => ⟨value + otherValue, (Except.ok.inj taints).symm⟩, nofun⟩

/-- Single tags have no items. -/
theorem Shaped.notIndexed {place : Subscript} (shaped : Shaped indexed characters one)
    (found : one.getItem place = .ok string) : indexed = false := by
  cases indexed with
  | false => rfl
  | true =>
      have taints := taints_getItem found
      obtain ⟨value, isSingle⟩ := shaped.single rfl
      rw [isSingle] at taints
      cases place <;> contradiction

theorem Shaped.slice {start stop step : Option Int} (shaped : Shaped indexed characters one)
    (found : one.getItem (.slice start stop step) = .ok string) :
    Shaped indexed ((PythonSlice.slice characters start stop step).getD []) string := by
  obtain rfl := shaped.notIndexed found
  rw [shaped.each rfl] at found
  rw [getItem_slice found]
  exact Shaped.of_characters _

theorem Shaped.index {index : Int} (shaped : Shaped indexed characters one)
    (found : one.getItem (.index index) = .ok string) (others : List (Char × Tags)) :
    Shaped true others string := by
  have taints := taints_getItem found
  rw [shaped.taints_eq (shaped.notIndexed found), CharacterTags.subscript] at taints
  refine ⟨fun _ => ?_, nofun⟩
  split at taints
  · next item found => exact ⟨Int.ofNat item, (Except.ok.inj taints).symm⟩
  · contradiction

/-- `str` keeps the tags of a value that is not both trusted and synthesized. -/
theorem strTags_eq_iff (tags : Tags) : strTags tags = tags ↔ tags.Consistent := by
  constructor
  · intro same
    rw [← same]
    exact Tags.consistent_returned _
  · intro consistent
    obtain ⟨trusted, synthesized, taints⟩ := tags
    have sameTaints : unionTaint emptyTaint taints = taints := Nat.zero_or taints
    have flags : strTags ⟨trusted, synthesized, taints⟩ =
        ⟨trusted, synthesized, unionTaint emptyTaint taints⟩ := by
      cases trusted <;> cases synthesized
      · rfl
      · rfl
      · rfl
      · exact absurd ⟨rfl, rfl⟩ consistent
    rw [flags, sameTaints]

end SpliceUserString

namespace SourceCharacter

/-- The character with the tags that it gets. -/
def tagged (source : SourceCharacter) : Char × Tags :=
  (source.char, if source.added then SpliceUserString.strTags source.tags else source.tags)

/-- The character with the tags of the value. -/
def original (source : SourceCharacter) : Char × Tags := (source.char, source.tags)

theorem tagged_eq_iff (source : SourceCharacter) : source.tagged = source.original ↔
    (source.added = true → source.tags.Consistent) := by
  rw [tagged, original, Prod.mk_right_inj]
  split
  · next added => simp only [SpliceUserString.strTags_eq_iff, added, forall_const]
  · next notAdded => simp only [notAdded, Bool.false_eq_true, false_imp_iff]

/-- The flags that an added character gets are never both set. -/
theorem consistent_of_flags (source : SourceCharacter) (added : source.added = true)
    (trusted : source.tagged.2.trusted = source.tags.trusted)
    (synthesized : source.tagged.2.synthesized = source.tags.synthesized) :
    source.tags.Consistent := by
  rw [Tags.Consistent, ← trusted, ← synthesized, tagged, if_pos added]
  exact Tags.consistent_returned _

end SourceCharacter

open SpliceUserString

theorem shaped_construct (value : StringValue) :
    Shaped false ((value.characters false).map SourceCharacter.tagged)
      (construct (.value value)) := by
  cases value with
  | plain text | splice text tags sequence =>
      rw [construct, uniform_eq, StringValue.characters, List.map_map]
      exact Shaped.of_characters _

theorem shaped_ofOperand (value : StringValue) :
    Shaped false ((value.characters true).map SourceCharacter.tagged)
      (ofOperand (.value value)) := by
  cases value with
  | plain text =>
      have same : strTags plainTags = plainTags := rfl
      rw [ofOperand, uniform_eq, StringValue.characters, List.map_map, ← same]
      exact Shaped.of_characters _
  | splice text tags sequence =>
      rw [ofOperand, uniform_eq, StringValue.characters, List.map_map]
      exact Shaped.of_characters _

namespace UserStringExpression

variable {expression : UserStringExpression} {string : SpliceUserString}

/-- The characters with the tags that they get. -/
def taggedCharacters (expression : UserStringExpression) : List (Char × Tags) :=
  expression.characters.map SourceCharacter.tagged

/-- Every string that an expression evaluates to is shaped by its operations. -/
theorem shaped (evaluated : expression.evaluate = .ok string) :
    Shaped expression.hasIndex expression.taggedCharacters string := by
  induction expression generalizing string with
  | construct value =>
      cases evaluated
      exact shaped_construct value
  | copy copied ih =>
      obtain ⟨one, isOne, rfl⟩ := exceptMap_ok evaluated
      exact ih isOne
  | add left right ihLeft ihRight =>
      obtain ⟨one, isOne, rest⟩ := exceptBind_ok evaluated
      obtain ⟨other, isOther, joined⟩ := exceptBind_ok rest
      rw [taggedCharacters, characters, List.map_append]
      exact (ihLeft isOne).join (ihRight isOther) joined
  | addValue left value ih =>
      obtain ⟨one, isOne, joined⟩ := exceptBind_ok evaluated
      rw [taggedCharacters, characters, List.map_append, hasIndex, ← Bool.or_false left.hasIndex]
      exact (ih isOne).join (shaped_ofOperand value) joined
  | valueAdd value right ih =>
      obtain ⟨other, isOther, joined⟩ := exceptBind_ok evaluated
      rw [taggedCharacters, characters, List.map_append, hasIndex, ← Bool.false_or right.hasIndex]
      cases value with
      | plain text => exact (shaped_ofOperand _).join (ih isOther) joined
      | splice text tags sequence =>
          cases sequence with
          | false => exact (shaped_ofOperand (.splice text tags false)).join (ih isOther) joined
          | true => contradiction
  | subscript sliced place ih =>
      obtain ⟨one, isOne, found⟩ := exceptBind_ok evaluated
      cases place with
      | index index => exact (ih isOne).index found _
      | slice start stop step =>
          have same : (subscript sliced (.slice start stop step)).taggedCharacters =
              (PythonSlice.slice sliced.taggedCharacters start stop step).getD [] := by
            rw [taggedCharacters, taggedCharacters, characters, PythonSlice.slice_map]
            cases PythonSlice.slice sliced.characters start stop step <;> rfl
          rw [same]
          exact (ih isOne).slice found

theorem flags_eq {flag : Tags → Bool}
    (same : CharacterTags.each (expression.taggedCharacters.map fun character => flag character.2) =
      .each (expression.characters.map fun source => flag source.tags)) :
    ∀ source ∈ expression.characters, flag source.tagged.2 = flag source.tags := by
  have lists := CharacterTags.each.inj same
  rw [taggedCharacters, List.map_map] at lists
  exact List.map_inj_left.mp lists

theorem tagsKept_iff : expression.TagsKept ↔ expression.hasIndex = false ∧
    expression.taggedCharacters = expression.characters.map SourceCharacter.original ∧
      ¬ Clash (expression.characters.map SourceCharacter.original) := by
  have clash : Clash (expression.characters.map SourceCharacter.original) ↔
      (∀ source ∈ expression.characters, source.tags.trusted = true) ∧
        ∃ source ∈ expression.characters, source.tags.synthesized = true := by
    simp [Clash, SourceCharacter.original]
  rw [taggedCharacters, List.map_inj_left, clash]
  constructor
  · rintro ⟨noIndex, consistent, flags⟩
    exact ⟨noIndex, fun source mem => (source.tagged_eq_iff).mpr (consistent source mem), flags⟩
  · rintro ⟨noIndex, same, flags⟩
    exact ⟨noIndex, fun source mem => (source.tagged_eq_iff).mp (same source mem), flags⟩

/-- The tags are kept if and only if no integer index, no inconsistent operand of `+` and no
clash of flags is involved. -/
theorem keepsTags_iff (evaluated : expression.evaluate = .ok string) :
    expression.KeepsTags string ↔ expression.TagsKept := by
  have isShaped := shaped evaluated
  have taints :
      Operand.taintsOf ((expression.characters.map SourceCharacter.original).map Prod.snd) =
        Operand.taintsOf (expression.characters.map fun source => source.tags) := by
    rw [List.map_map]
    rfl
  rw [tagsKept_iff]
  constructor
  · intro keeps
    have noIndex : expression.hasIndex = false := by
      by_contra indexed
      obtain ⟨value, single⟩ := isShaped.single (Bool.eq_true_of_not_eq_false indexed)
      rw [keeps.taints] at single
      contradiction
    obtain rfl := isShaped.each noIndex
    have same : expression.taggedCharacters =
        expression.characters.map SourceCharacter.original := by
      refine List.map_inj_left.mpr fun source mem => source.tagged_eq_iff.mpr fun added => ?_
      exact source.consistent_of_flags added (flags_eq keeps.trusted source mem)
        (flags_eq keeps.synthesized source mem)
    have kept := keeps.str
    rw [same, ← taints] at kept
    exact ⟨noIndex, same, str_eq_ok_iff.mp kept⟩
  · rintro ⟨noIndex, same, flags⟩
    obtain rfl := isShaped.each noIndex
    have kept := str_eq_ok_iff.mpr flags
    rw [taints] at kept
    rw [same]
    refine ⟨?_, ?_, ?_, ?_, kept⟩ <;>
      simp only [ofCharacters, List.map_map] <;>
      rfl

/-- Every second character of a tainted and a plain string. -/
theorem sliced_keepsTags :
    KeepsTags (.subscript (.addValue (.construct (.splice ['k', 'e', 'y'] ⟨false, false, 4⟩ true))
      (.plain ['=', '1'])) (.slice (some 1) none (some 2)))
      ⟨['e', '='], .each [4, 0], .each [false, false], .each [false, true]⟩ :=
  (keepsTags_iff rfl).mpr ⟨rfl, by decide, by decide⟩

/-- The taints of a character are no list, and `str` of it raises an error. -/
theorem index_leaves_single : ∃ (expression : UserStringExpression) (string : SpliceUserString),
    expression =
      .subscript (.construct (.splice ['k', 'e', 'y'] ⟨false, false, 4⟩ true)) (.index 0) ∧
    expression.evaluate = .ok string ∧ string.data = ['k'] ∧ string.taints = .single 4 ∧
    string.str = .error .typeError ∧ ¬ expression.KeepsTags string :=
  ⟨_, _, rfl, rfl, rfl, rfl, rfl, fun keeps => nomatch keeps.taints⟩

end UserStringExpression

end SaltyRtcServer
