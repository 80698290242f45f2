import ActionSheet.Record.Write
import ActionSheet.Record.Read
import ActionSheet.Json.Source
import ActionSheet.Proofs.Json.Literal

/-!
# Values without parts are read back

The types of the fields that hold no fields themselves: identifiers, codes, spans, texts, and those of
which there may be none. Each is read off what is written for it, and so no two of its values are
written alike. Only a span has a limit, the machine word that it is read into.
-/

namespace ActionSheet

namespace Uuid

theorem digit?_digitChar (d : Fin 16) : digit? (digitChar d) = some d := by
  rw [digit?, digitChar, Json.hexValue?_hexChar d.isLt, Option.bind_some, dif_pos d.isLt]

theorem mapM_digit? (ds : List (Fin 16)) : (ds.map digitChar).mapM digit? = some ds := by
  induction ds with
  | nil => rfl
  | cons d ds ih =>
      rw [List.map_cons, List.mapM_cons, digit?_digitChar, ih]
      rfl

theorem ofDigits?_digits (u : Uuid) : ofDigits? (u.digits.map digitChar) = some u := by
  rw [ofDigits?, mapM_digit?, Option.bind_some, dif_pos u.length_digits]

/-- The hyphens stand where they are looked for, and what is left without them are the digits. -/
theorem ofGrouped?_pieces {a b c d e : List Char} (ha : a.length = 8) (hb : b.length = 4)
    (hc : c.length = 4) (hd : d.length = 4) :
    ofGrouped? (a ++ '-' :: b ++ '-' :: c ++ '-' :: d ++ '-' :: e) =
      ofDigits? (a ++ b ++ c ++ d ++ e) := by
  have hyphens : ∀ n, n = 8 ∨ n = 13 ∨ n = 18 ∨ n = 23 →
      (a ++ '-' :: b ++ '-' :: c ++ '-' :: d ++ '-' :: e)[n]? = some '-' := by
    rintro n (rfl | rfl | rfl | rfl)
    all_goals simp [List.getElem?_append, ha, hb, hc, hd]
  rw [ofGrouped?, if_pos ⟨hyphens 8 (by simp), hyphens 13 (by simp), hyphens 18 (by simp),
    hyphens 23 (by simp)⟩]
  simp (disch := omega) [List.drop_append, List.drop_of_length_le, ha, hb, hc, hd]

theorem pieces_append (cs : List Char) :
    cs.take 8 ++ (cs.drop 8).take 4 ++ (cs.drop 12).take 4 ++ (cs.drop 16).take 4 ++ cs.drop 20 =
      cs := by
  have h₈ := List.take_append_drop 8 cs
  have h₁₂ := List.take_append_drop 4 (cs.drop 8)
  have h₁₆ := List.take_append_drop 4 (cs.drop 12)
  have h₂₀ := List.take_append_drop 4 (cs.drop 16)
  rw [List.drop_drop] at h₁₂ h₁₆ h₂₀
  rw [List.append_assoc, List.append_assoc, List.append_assoc, h₂₀, h₁₆, h₁₂, h₈]

/-- An identifier is read off its written form. -/
theorem ofText?_toText (u : Uuid) : ofText? u.toText = some u := by
  have hlength := u.length_digits
  rw [toText, ofText?, String.toList_ofList, ofChars?]
  have hgrouped : (grouped u.digits).length = 36 := by
    simp [grouped, hlength]
  rw [hgrouped, if_neg (by decide), if_pos rfl, grouped, ofGrouped?_pieces]
  · rw [pieces_append, ofDigits?_digits]
  · simp [hlength]
  · simp [hlength]
  · simp [hlength]
  · simp [hlength]

end Uuid

namespace Record

theorem uuid_toJson (u : Uuid) : uuid u.toJson = some u := by
  have htext : text u.toJson = some u.toText := rfl
  rw [uuid, htext, Option.bind_some, Uuid.ofText?_toText]

theorem int32_codeToJson (n : Int32) : int32 (codeToJson n) = some n := by
  have hinteger : Source.integer? (codeToJson n) = some n.toInt := rfl
  have hrange : -2147483648 ≤ n.toInt ∧ n.toInt ≤ 2147483647 :=
    ⟨n.le_toInt, Int.le_of_lt_add_one n.toInt_lt⟩
  rw [int32, hinteger, Option.bind_some, if_pos hrange, Int32.ofInt_toInt]

theorem natural64_natural {n : Nat} (h : n < UInt64.size) :
    natural64 (Json.natural n) = some n := by
  have hinteger : Source.integer? (Json.natural n) = some (n : Int) := rfl
  rw [natural64, hinteger, Option.bind_some, if_pos ⟨Int.natCast_nonneg n, Int.ofNat_lt.2 h⟩,
    Int.toNat_natCast]

theorem text_text (s : String) : text (Json.text s) = some s := rfl

theorem nullable_textOrNull (s : Option String) : nullable text (Json.textOrNull s) = some s := by
  cases s with
  | none => rfl
  | some s => rfl

theorem nullable_uuidOrNull (u : Option Uuid) :
    nullable uuid ((u.map Uuid.toJson).getD Json.null) = some u := by
  cases u with
  | none => rfl
  | some u =>
      have habsent : Source.absent? u.toJson = some false := rfl
      rw [Option.map_some, Option.getD_some, nullable, habsent, Option.bind_some, uuid_toJson]
      rfl

/-- Two values that are read off one encoding are one value. -/
theorem write_inj_of_read {α : Type} {write : α → Json} {read : Json → Option α}
    (h : ∀ x, read (write x) = some x) {x y : α} : write x = write y ↔ x = y := by
  refine ⟨fun heq => ?_, congrArg write⟩
  have hread := h x
  rw [heq, h y] at hread
  exact (Option.some.inj hread).symm

end Record

/-! ## An encoding is that of one value -/

@[simp] theorem Uuid.toJson_inj {u u' : Uuid} : u.toJson = u'.toJson ↔ u = u' :=
  Record.write_inj_of_read Record.uuid_toJson

@[simp] theorem codeToJson_inj {n n' : Int32} : codeToJson n = codeToJson n' ↔ n = n' :=
  Record.write_inj_of_read Record.int32_codeToJson

namespace Json

@[simp] theorem text_inj {s s' : String} : text s = text s' ↔ s = s' :=
  Record.write_inj_of_read Record.text_text

@[simp] theorem textOrNull_inj {s s' : Option String} : textOrNull s = textOrNull s' ↔ s = s' :=
  Record.write_inj_of_read Record.nullable_textOrNull

@[simp] theorem uuidOrNull_inj {u u' : Option Uuid} :
    (u.map Uuid.toJson).getD null = (u'.map Uuid.toJson).getD null ↔ u = u' :=
  Record.write_inj_of_read Record.nullable_uuidOrNull

@[simp] theorem natural_inj {n n' : Nat} : natural n = natural n' ↔ n = n' := by
  rw [natural, natural, integer.injEq, Int.ofNat_inj]

@[simp] theorem record_inj {ms ms' : List (String × Json)} : record ms = record ms' ↔ ms = ms' := by
  rw [record, record, object.injEq]
  refine List.map_inj_right ?_
  rintro ⟨name, v⟩ ⟨name', v'⟩ heq
  cases heq
  rfl

theorem list_inj {α : Type} {write : α → Json} (h : ∀ {x y}, write x = write y ↔ x = y)
    {xs ys : List α} : list write xs = list write ys ↔ xs = ys := by
  rw [list, list, array.injEq]
  exact List.map_inj_right fun _ _ => h.1

end Json

end ActionSheet
