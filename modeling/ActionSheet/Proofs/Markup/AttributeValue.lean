import ActionSheet.Proofs.Markup.Document
import ActionSheet.Proofs.Text.Inverse
import Mathlib.Data.List.Nodup

/-!
# The value of an attribute

However the value of an attribute is spelled, the element has that value. The document about which
this is said is as small as can be, one element with one attribute, so that nothing but the value can
go wrong in it: the tag ends at the first angle bracket outside the quotation marks and not at one in
the value, the quotation mark that closes the value is the first of its kind, and what stands between
the marks is expanded once.

The escape of the sheet is meant for text between tags and leaves quotation marks alone. It spells
every value that is free of the mark around it (`spells_escapeChars`).
-/

namespace ActionSheet.Markup

open Text Draft

/-- The escape is a spelling between quotation marks that the text does not hold. -/
theorem spells_escapeChars {quote : Char} {s : List Char} (h : quote ∉ s) :
    Spells quote s (escapeChars s) := by
  rw [escapeChars_eq_flatMap]
  induction s with
  | nil => exact .nil
  | cons c s ih =>
      have hs := ih fun hq => h (List.mem_cons_of_mem c hq)
      rw [List.flatMap_cons]
      unfold entity
      split
      · exact .reference .amp hs
      · exact .reference .lt hs
      · exact .reference .gt hs
      · next hamp _ _ => exact .itself hamp (List.ne_of_not_mem_cons h).symm hs

/-- The document of one element that has one attribute and closes itself. -/
def loneTag (key : List Char) (quote : Char) (spelling : List Char) : String :=
  String.ofList ("<a ".toList ++ key ++ '=' :: quote :: (spelling ++ quote :: "/>".toList))

/-- Its element. -/
def loneElement (key : List Char) (value : String) : Element :=
  ⟨none, "a", [⟨none, String.ofList key, value⟩], []⟩

def loneDraft (key : List Char) (value : String) : Draft :=
  .node ⟨none, ['a']⟩ [⟨⟨none, key⟩, value.toList⟩] []

/-- A key of letters that declares no namespace. -/
structure IsLetterKey (key : List Char) : Prop where
  ne_nil : key ≠ []
  letters : ∀ c ∈ key, c.isAlpha = true
  ne_xmlns : key ≠ "xmlns".toList

theorem isNameChar_of_isAlpha {c : Char} (h : c.isAlpha = true) : isNameChar c = true := by
  rw [isNameChar, Char.isAlphanum, h]
  rfl

namespace IsLetterKey

variable {key : List Char}

theorem isPlain (h : IsLetterKey key) : (Name.mk none key).IsPlain :=
  ⟨⟨h.ne_nil, List.all_eq_true.2 fun c hc => isNameChar_of_isAlpha (h.letters c hc)⟩, nofun⟩

theorem wellFormed (h : IsLetterKey key) (value : String) : (loneDraft key value).WellFormed := by
  refine ⟨by decide, fun a ha => ?_, List.nodup_singleton _, trivial⟩
  rw [List.mem_singleton.1 ha]
  exact ⟨h.isPlain, nofun⟩

theorem undeclared (h : IsLetterKey key) (value : String) : (loneDraft key value).Undeclared := by
  refine ⟨rfl, fun a ha => ?_, trivial⟩
  rw [List.mem_singleton.1 ha]
  rintro (hpre | hname)
  · cases hpre
  · exact h.ne_xmlns (congrArg Name.part hname)

end IsLetterKey

theorem depth_loneDraft (key : List Char) (value : String) : (loneDraft key value).depth = 1 := by
  rw [loneDraft, depth, depthAll]

theorem element_loneDraft (key : List Char) (value : String) :
    (loneDraft key value).element = loneElement key value := by
  rw [loneDraft, element, loneElement, List.map_singleton, Entry.toAttribute, String.ofList_toList]
  rfl

theorem document_loneTag {key spelling : List Char} {quote : Char} {value : String}
    (hq : quote = '"' ∨ quote = '\'') (h : Spells quote value.toList spelling) :
    Document (loneDraft key value) (loneTag key quote spelling).toList := by
  have hentries : Entries [⟨⟨none, key⟩, value.toList⟩]
      ([' '] ++ key ++ '=' :: quote :: (spelling ++ quote :: [])) :=
    .cons nofun (List.all_eq_true.1 rfl) hq h entries_nil
  have hwritten : Written (loneDraft key value) _ := @Written.empty ⟨none, ['a']⟩ _ _ hentries
  have hdocument := Document.root .nil hwritten .nil
  have htext : (loneTag key quote spelling).toList = _ := String.toList_ofList
  rw [htext]
  simpa [Name.chars] using hdocument

/-- An attribute has the value that is spelled. This holds of every spelling, and so of the escaped
value wherever the value does not hold the quotation mark that is used. -/
theorem parse_loneTag {key : List Char} (hkey : IsLetterKey key) {quote : Char}
    (hq : quote = '"' ∨ quote = '\'') (value : String) :
    (∀ spelling, Spells quote value.toList spelling →
      parse (loneTag key quote spelling) = .ok (loneElement key value)) ∧
    (quote ∉ value.toList →
      parse (loneTag key quote (escape value).toList) = .ok (loneElement key value)) := by
  have hall : ∀ spelling, Spells quote value.toList spelling →
      parse (loneTag key quote spelling) = .ok (loneElement key value) := by
    intro spelling h
    have hd : (loneDraft key value).depth ≤ maxDepth := by
      rw [depth_loneDraft]
      decide
    obtain ⟨e, he, hbecomes⟩ :=
      exists_parse_of_document (document_loneTag hq h) (hkey.wellFormed value) hd
    rw [he, hbecomes.same (hkey.undeclared value) (by decide), element_loneDraft]
  refine ⟨hall, fun hfree => hall _ ?_⟩
  rw [escape, String.toList_ofList]
  exact spells_escapeChars hfree

/-- A value that looks like a reference and holds both quotation marks and both angle brackets. -/
def mixedValue : String := "&lt;<>\"'"

/-- A spelling of it, with references of every kind between characters that stand for themselves. -/
def mixedSpelling : List Char := "&#38;lt;<&gt;\"&#x27;".toList

theorem spells_mixed : Spells '\'' mixedValue.toList mixedSpelling := by
  have hamp : Numeral 10 (['3'] ++ ['8']) '&'.toNat := .snoc (.digit (d := 3) rfl) (d := 8) rfl
  have hquote : Numeral 16 (['2'] ++ ['7']) '\''.toNat := .snoc (.digit (d := 2) rfl) (d := 7) rfl
  have hend : Spells '\'' ['\''] ('&' :: ('#' :: 'x' :: (['2'] ++ ['7']) ++ ';' :: [])) :=
    .reference (.hexadecimal hquote (by decide)) .nil
  have hmiddle : Spells '\'' "lt;<>\"'".toList ("lt;<&gt;\"&#x27;".toList) :=
    .itself (by decide) (by decide) <| .itself (by decide) (by decide) <|
      .itself (by decide) (by decide) <| .itself (by decide) (by decide) <|
        .reference .gt <| .itself (by decide) (by decide) hend
  exact .reference (.decimal hamp (by decide)) hmiddle

theorem parse_loneTag_mixed :
    IsLetterKey "Value".toList ∧ Spells '\'' mixedValue.toList mixedSpelling ∧
      parse (loneTag "Value".toList '\'' mixedSpelling) =
        .ok (loneElement "Value".toList mixedValue) := by
  have hkey : IsLetterKey "Value".toList := ⟨by decide, List.all_eq_true.1 rfl, by decide⟩
  exact ⟨hkey, spells_mixed, (parse_loneTag hkey (.inr rfl) mixedValue).1 _ spells_mixed⟩

end ActionSheet.Markup
