import OrionBroker.Common.Strings

/-!
# Strings that pass through a C string

`STR_FIELD` (MongoGlobal.h:146) and `c_str()` end a string at its first NUL. JSON requests bring one in as `\u0000`, so
what is read back from the database need not be what was stored: `cString` is what is left, and a string without NUL
(`NoNul`) is left whole.
-/

namespace OrionBroker

/-- A `std::string` made from a C string. -/
def cString (s : String) : String := String.ofList (cStr s)

def NoNul (s : String) : Prop := '\x00' ∉ s.toList

instance (s : String) : Decidable (NoNul s) := inferInstanceAs (Decidable ('\x00' ∉ s.toList))

theorem cStr_eq_iff (s : String) : cStr s = s.toList ↔ NoNul s := by
  rw [cStr, List.takeWhile_eq_self_iff]
  constructor
  · intro h hmem
    simpa using h _ hmem
  · intro h c hc
    simpa using fun he : c = '\x00' => h (he ▸ hc)

theorem cString_eq_iff (s : String) : cString s = s ↔ NoNul s := by
  rw [← cStr_eq_iff, cString]
  constructor
  · intro h
    rw [← h, String.toList_ofList, h]
  · intro h
    rw [h, String.ofList_toList]

theorem NoNul.cString {s : String} (h : NoNul s) : cString s = s := (cString_eq_iff s).2 h

theorem noNul_cString (s : String) : NoNul (cString s) := by
  intro hmem
  rw [OrionBroker.cString, String.toList_ofList] at hmem
  simpa using List.mem_takeWhile_imp hmem

@[simp] theorem cStr_cString (s : String) : cStr (cString s) = cStr s := by
  rw [(cStr_eq_iff _).2 (noNul_cString s), cString, String.toList_ofList]

/-- `string2coords` copies the text with `strdup`. -/
@[simp] theorem coords_cString (atof : List Char → Rat) (s : String) : coords atof (cString s) = coords atof s := by
  rw [coords, coords, coordTexts, coordTexts, cStr_cString]

@[simp] theorem cString_cString (s : String) : cString (cString s) = cString s := (noNul_cString s).cString

theorem noNul_empty : NoNul "" := by decide

theorem cString_empty : cString "" = "" := noNul_empty.cString

end OrionBroker
