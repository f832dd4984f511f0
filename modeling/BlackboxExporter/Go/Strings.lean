import Mathlib.Data.List.Basic

/-! Go library text functions that the probers call on configured strings.

`strings.Title` decides which configured header sets the request's authority,
and `textproto.CanonicalMIMEHeaderKey` decides which slot of `http.Header` a
configured header lands in. Go strings are bytes; the functions below only
compare against ASCII, whose bytes are their own runes, so the model works on
runes. `unicode.ToTitle` is modelled on ASCII only: no other rune title-cases
to an ASCII letter that the probers compare against. -/

namespace BlackboxExporter.Go

def isUnicodeSpace (rune : Char) : Bool :=
  rune.toNat == 0x85 || rune.toNat == 0xA0 || rune.toNat == 0x1680 ||
    (0x2000 ≤ rune.toNat && rune.toNat ≤ 0x200A) || rune.toNat == 0x2028 ||
    rune.toNat == 0x2029 || rune.toNat == 0x202F || rune.toNat == 0x205F ||
    rune.toNat == 0x3000

/-- `strings.isSeparator`: ASCII alphanumerics and underscore are not
separators, other ASCII is; beyond ASCII only spaces are. -/
def isSeparator (rune : Char) : Bool :=
  if rune.toNat ≤ 0x7F then !(rune.isAlphanum || rune == '_')
  else isUnicodeSpace rune

def titleFrom (prev : Char) : List Char → List Char
  | [] => []
  | rune :: rest =>
      (if isSeparator prev then rune.toUpper else rune) :: titleFrom rune rest

def title (text : String) : String :=
  ⟨titleFrom ' ' text.data⟩

/-- `validHeaderFieldByte`: the token bytes of RFC 7230. Apostrophe and
backquote are codes 39 and 96. -/
def validHeaderFieldByte (byte : Char) : Bool :=
  byte.isAlphanum || "!#$%&*+-.^_|~".data.contains byte || byte.toNat == 39 ||
    byte.toNat == 96

def canonicalFrom (upper : Bool) : List Char → List Char
  | [] => []
  | byte :: rest =>
      let changed := if upper then byte.toUpper else byte.toLower
      changed :: canonicalFrom (changed == '-') rest

/-- `textproto.CanonicalMIMEHeaderKey`. A key holding a byte that is not a
token byte is returned unchanged; otherwise it is canonicalized. The quick
check of the library returns early exactly on keys the loop leaves alone. -/
def canonicalMIMEHeaderKey (key : String) : String :=
  if key.data.all validHeaderFieldByte then ⟨canonicalFrom true key.data⟩
  else key

theorem toNat_ofNat_of_lt {code : Nat} (valid : code < 0xd800) :
    (Char.ofNat code).toNat = code := by
  unfold Char.ofNat
  rw [dif_pos (Or.inl valid)]
  rfl

theorem toUpper_eq_H {rune : Char} (upper : rune.toUpper = 'H') :
    rune = 'h' ∨ rune = 'H' := by
  simp only [Char.toUpper] at upper
  split at upper
  case isTrue lower =>
    have codes := congrArg Char.toNat upper
    rw [toNat_ofNat_of_lt (by omega)] at codes
    have isH : rune.toNat = 104 := by
      have : 'H'.toNat = 72 := rfl
      omega
    left
    rw [← Char.ofNat_toNat rune, isH]
  case isFalse => exact Or.inr upper

/-- `strings.Title(key) == "Host"` holds for exactly two spellings: only the
first rune follows a separator, and the others stay as written. -/
theorem title_eq_host_iff (key : String) :
    title key = "Host" ↔ key = "host" ∨ key = "Host" := by
  constructor
  · obtain ⟨runes⟩ := key
    intro titled
    have data := congrArg String.data titled
    simp only [title] at data
    rcases runes with _ | ⟨c0, _ | ⟨c1, _ | ⟨c2, _ | ⟨c3, _ | ⟨c4, rest⟩⟩⟩⟩⟩ <;>
      simp [titleFrom] at data
    obtain ⟨first, second, third, fourth⟩ := data
    have space : isSeparator ' ' = true := rfl
    have lowerH : isSeparator 'h' = false := rfl
    have upperH : isSeparator 'H' = false := rfl
    have letterO : isSeparator 'o' = false := rfl
    have letterS : isSeparator 's' = false := rfl
    rw [if_pos space] at first
    rcases toUpper_eq_H first with rfl | rfl <;>
      simp only [lowerH, upperH, letterO, letterS, Bool.false_eq_true, if_false]
        at second third fourth <;>
      subst second third fourth <;> simp
  · rintro (same | same) <;> rw [same] <;> rfl

end BlackboxExporter.Go
