/-
The generator of organization slugs: the letters and digits of a name, with one hyphen for all that
stands between them, and a random suffix.
-/
import MuxivoConsole.Floats.Decimals
import MuxivoConsole.Regex.Backtracking

namespace MuxivoConsole

open Text Regex

/-- `[a-z0-9]` -/
def isSlugCode (code : Nat) : Bool :=
  (97 ≤ code && code ≤ 122) || (48 ≤ code && code ≤ 57)

/-- `re.sub(r"[^a-z0-9]+", "-", text)` -/
def hyphenated (codes : Str) : Str :=
  substitute [Pattern.some' fun code => !isSlugCode code] (fun _ => [45]) codes

/-- `text.rstrip("-")` -/
def rstripHyphens (codes : Str) : Str :=
  codes.rdropWhile (· == 45)

/-- `text.strip("-")` -/
def stripHyphens (codes : Str) : Str :=
  rstripHyphens (codes.dropWhile (· == 45))

namespace RandomSuffixOrganizationSlugGenerator

/-- The part of a slug that is made of the name. -/
def stem (normalize : Str → Str) (organizationName : Str) : Str :=
  let asciiName := ((normalize organizationName).filter (· < 128)).map Binary64.lowerAscii
  let stripped := stripHyphens (hyphenated asciiName)
  if stripped = [] then codesOf "organization" else stripped

/-- `generate`, where `normalize` is `unicodedata.normalize("NFKD", ...)` and the suffix comes from
`secrets.token_hex(4)` -/
def generate (normalize : Str → Str) (organizationName suffix : Str) : Str :=
  rstripHyphens ((stem normalize organizationName).take (96 - suffix.length - 1)) ++ 45 :: suffix

end RandomSuffixOrganizationSlugGenerator

end MuxivoConsole
