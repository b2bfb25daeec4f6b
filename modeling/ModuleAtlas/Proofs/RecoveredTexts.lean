import ModuleAtlas.Proofs.OctetUnits
import ModuleAtlas.Script.Tree

/-!
# Texts recovered from ranges

Names and targets of imports are read out of ranges of octets.  A range that covers
a part of the text gives that part back, and a literal gives back what stands
between its quotation marks.  Any other range has a text as well, with one character
for each unit of its octets.
-/

namespace ModuleAtlas.Script

open Text.Utf8

/-! ## Ranges -/

/-- The range of the node is that of `covered` in a text that has it behind
`before`. -/
structure Tree.Covers (node : Tree) (before covered : String) : Prop where
  start_eq : node.start = before.utf8ByteSize
  stop_eq : node.stop = before.utf8ByteSize + covered.utf8ByteSize

/-- The text between two quotation marks. -/
def quoted (quote : Char) (content : String) : String :=
  String.singleton quote ++ content ++ String.singleton quote

namespace Source

theorem toList_octets_ofText (text : String) :
    (ofText text).octets.toList = text.toList.flatMap String.utf8EncodeChar := by
  change text.toUTF8.data.toList = _
  rw [String.toUTF8_eq_toByteArray, ← String.utf8Encode_toList]
  exact List.toList_data_toByteArray

theorem length_flatMap_utf8EncodeChar (text : String) :
    (text.toList.flatMap String.utf8EncodeChar).length = text.utf8ByteSize := by
  rw [← toList_octets_ofText, ← String.size_toByteArray]
  rfl

/-- The octets of a part of a text stand between those in front of it and those
behind it. -/
theorem toList_extract_ofText (before covered behind : String) :
    ((ofText (before ++ covered ++ behind)).octets.extract before.utf8ByteSize
        (before.utf8ByteSize + covered.utf8ByteSize)).toList =
      covered.toList.flatMap String.utf8EncodeChar := by
  rw [Array.toList_extract, toList_octets_ofText, String.toList_append, String.toList_append,
    List.flatMap_append, List.flatMap_append, List.append_assoc, List.extract_eq_take_drop,
    List.drop_left' (length_flatMap_utf8EncodeChar before), Nat.add_sub_cancel_left,
    List.take_left' (length_flatMap_utf8EncodeChar covered)]

theorem slice_eq_iff (source : Source) (start stop : Nat) (text : String) :
    source.slice start stop = text ↔
      ShowsAs (source.octets.extract start stop).toList text.toList :=
  decodeLossy_eq_iff _ text

/-- The two octets of a character that is cut show as one character. -/
example : (ofText "né€").slice 1 5 = "é\uFFFD" := by
  decide +kernel

/-- A range has at most one character for each of its octets that the source has. -/
theorem length_slice_le (source : Source) (start stop : Nat) :
    (source.slice start stop).length ≤ min stop source.octets.size - start := by
  have shows := (source.slice_eq_iff start stop _).mp rfl
  have bound := shows.length_le
  rwa [String.length_toList, Array.length_toList, Array.size_extract] at bound

theorem text_of_covers
    {node : Tree} {before covered : String} (covers : node.Covers before covered)
    (behind : String) :
    (ofText (before ++ covered ++ behind)).text node = covered := by
  rw [text, covers.start_eq, covers.stop_eq, slice_eq_iff, toList_extract_ofText]
  exact showsAs_flatMap_utf8EncodeChar covered.toList

/-- Quotation marks are taken off once, whatever stands between them. -/
theorem unquote_quoted {quote : Char} (isQuote : quote = '\'' ∨ quote = '"') (content : List Char) :
    unquote (quote :: (content ++ [quote])) = content := by
  cases inner : content ++ [quote] with
  | nil =>
      exact absurd inner (List.append_ne_nil_of_right_ne_nil content (List.cons_ne_nil quote []))
  | cons second rest =>
      have closes : (second :: rest).getLast? = some quote := by
        rw [← inner, List.getLast?_concat]
      rw [unquote, if_pos ⟨isQuote, closes⟩, ← inner, List.dropLast_concat]

theorem stringValue_of_covers
    {node : Tree} {before content : String} {quote : Char}
    (isQuote : quote = '\'' ∨ quote = '"') (covers : node.Covers before (quoted quote content))
    (behind : String) :
    (ofText (before ++ quoted quote content ++ behind)).stringValue node = content := by
  have characters : (quoted quote content).toList = quote :: (content.toList ++ [quote]) := by
    simp [quoted]
  rw [stringValue, text_of_covers covers, characters, unquote_quoted isQuote, String.ofList_toList]

end Source

/-- The range of a part of a text gives that part back, and without its quotation
marks where it is quoted.  Any range of any octets, also one that cuts characters or
ends past the source, has one text, told by the units of the octets in it, and no
more characters than octets. -/
theorem octet_ranges_recover_texts (node : Tree) :
    (∀ before covered behind : String,
        node.Covers before covered →
          (Source.ofText (before ++ covered ++ behind)).text node = covered) ∧
      (∀ (before content behind : String) (quote : Char),
        quote = '\'' ∨ quote = '"' →
          node.Covers before (quoted quote content) →
            (Source.ofText (before ++ quoted quote content ++ behind)).stringValue node =
              content) ∧
      ∀ source : Source,
        (∀ text : String,
          source.text node = text ↔
            ShowsAs (source.octets.extract node.start node.stop).toList text.toList) ∧
        (source.text node).length ≤ min node.stop source.octets.size - node.start := by
  refine ⟨?_, ?_, ?_⟩
  · intro before covered behind covers
    exact Source.text_of_covers covers behind
  · intro before content behind quote isQuote covers
    exact Source.stringValue_of_covers isQuote covers behind
  · intro source
    exact ⟨source.slice_eq_iff node.start node.stop, source.length_slice_le node.start node.stop⟩

/-- The target of an import behind a comment and in front of a name, all with
characters of several octets. -/
def accentedTarget : Tree :=
  { kind := "string", start := 17, stop := 27, point := (0, 17) }

theorem octet_ranges_recover_texts_accentedTarget :
    accentedTarget.Covers "/* ü€ */ from " (quoted '"' "./é😀") ∧
      ('"' = '\'' ∨ '"' = '"') ∧
      (Source.ofText ("/* ü€ */ from " ++ quoted '"' "./é😀" ++ "; ñ")).text accentedTarget =
        quoted '"' "./é😀" ∧
      (Source.ofText ("/* ü€ */ from " ++ quoted '"' "./é😀" ++ "; ñ")).stringValue
          accentedTarget =
        "./é😀" := by
  have covers : accentedTarget.Covers "/* ü€ */ from " (quoted '"' "./é😀") :=
    ⟨by decide, by decide⟩
  have isQuote : '"' = '\'' ∨ '"' = '"' := .inr rfl
  obtain ⟨recovers, unquotes, _⟩ := octet_ranges_recover_texts accentedTarget
  exact ⟨covers, isQuote, recovers _ _ "; ñ" covers, unquotes _ _ "; ñ" _ isQuote covers⟩

end ModuleAtlas.Script
