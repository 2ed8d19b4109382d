import NancyMan.Lib.Js
import NancyMan.Lib.RegExp
import NancyMan.Lib.TextUnits

/-!
# Redacted texts

What looks like a secret in a text is replaced by `[REDACTED]`, by six patterns one after another.
None of them starts with a bracket, so a text that was redacted is left as it is exactly where none
of them is found in it: a replacement may leave a match behind, as where a telephone number that ran
into the end of an address is gone.
-/
namespace NancyMan.Telemetry

open RegExp

/-- `[a-z0-9]`, in either case, and some more symbols. -/
def lettersDigits (more : List Char) : RegExp :=
  symbol fun head => head.isAlphanum || more.contains head

/-- `[^\s…]`: no white space and none of some symbols. -/
def noneOf (symbols : List Char) : RegExp :=
  symbol fun head => !(isWhitespace head || symbols.contains head)

/-- `\s`. -/
def space : RegExp := symbol isWhitespace

/-- `\d`. -/
def digit : RegExp := symbol Char.isDigit

def isWordSymbol (head : Char) : Bool := head.isAlphanum || head == '_'

/-- `\b`. -/
def wordBoundary : RegExp :=
  boundary fun before after => before.any isWordSymbol != after.any isWordSymbol

def caseless (text : String) : RegExp :=
  inOrder (text.toList.map fun letter => symbol fun head => head.toLower == letter)

/-- `/postgres(?:ql)?:\/\/[^\s"')]+/gi`. -/
def connectionUrl : RegExp :=
  inOrder [caseless "postgres", optional (caseless "ql"), caseless "://",
    plus (noneOf ['"', '\'', ')'])]

/-- `/bearer\s+[a-z0-9._~+/=-]+/gi`. -/
def bearerToken : RegExp :=
  inOrder [caseless "bearer", plus space,
    plus (lettersDigits ['.', '_', '~', '+', '/', '=', '-'])]

/-- `/(?:password|otp|authorization|api[_-]?key|token|cookie|csrf)\s*[:=]\s*[^\s,;)&]+/gi`. -/
def namedSecret : RegExp :=
  inOrder [oneOf [caseless "password", caseless "otp", caseless "authorization",
      inOrder [caseless "api", optional (symbol fun head => head == '_' || head == '-'),
        caseless "key"],
      caseless "token", caseless "cookie", caseless "csrf"],
    many true space, symbol fun head => head == ':' || head == '=', many true space,
    plus (noneOf [',', ';', ')', '&'])]

/-- `/data:image\/[a-z0-9.+-]+;base64,[a-z0-9+/=]+/gi`. -/
def imageData : RegExp :=
  inOrder [caseless "data:image/", plus (lettersDigits ['.', '+', '-']), caseless ";base64,",
    plus (lettersDigits ['+', '/', '='])]

/-- `/\b[A-Z0-9._%+-]+@[A-Z0-9.-]+\.[A-Z]{2,}\b/gi`. -/
def emailAddress : RegExp :=
  inOrder [wordBoundary, plus (lettersDigits ['.', '_', '%', '+', '-']), caseless "@",
    plus (lettersDigits ['.', '-']), caseless ".", symbol Char.isAlpha, plus (symbol Char.isAlpha),
    wordBoundary]

/-- `/(?<!\d)(?:\+?84|0)\d{9,10}(?!\d)/g`. -/
def telephoneNumber : RegExp :=
  inOrder [boundary fun before _ => !before.any Char.isDigit,
    either (inOrder [optional (caseless "+"), caseless "84"]) (caseless "0"), times 9 digit,
    optional digit, boundary fun _ after => !after.any Char.isDigit]

/-- `patterns` of `sanitizeText`. -/
def redactionPatterns : List RegExp :=
  [connectionUrl, bearerToken, namedSecret, imageData, emailAddress, telephoneNumber]

/-- `'[REDACTED]'`. -/
def redactionMark : List Char := '[' :: "REDACTED]".toList

/-- `sanitizeText`, without its flag. -/
def sanitizeText (text : String) : String :=
  String.ofList (replaceEach redactionPatterns redactionMark text.toList)

/-! ## Redacting again -/

theorem redactionPatterns_foreign : Foreign '[' redactionPatterns := by
  unfold Foreign
  decide

/-- A text without secrets is left as it is, and only such a text. -/
theorem sanitizeText_eq_self_iff (text : String) :
    sanitizeText text = text ↔ ∀ pattern ∈ redactionPatterns, pattern.foundIn text.toList = false := by
  have unchanged : replaceEach redactionPatterns redactionMark text.toList = text.toList ↔
      ∀ pattern ∈ redactionPatterns, pattern.foundIn text.toList = false :=
    replaceEach_eq_self_iff redactionPatterns_foreign text.toList
  rw [← unchanged]
  unfold sanitizeText
  constructor
  · intro same
    have symbols := congrArg String.toList same
    rw [String.toList_ofList] at symbols
    exact symbols
  · intro same
    rw [same, String.ofList_toList]

/-- A text that a cut of it is redacted to is that cut. -/
theorem sanitizeText_cut {limit : Nat} {text : String}
    (restored : sanitizeText (sliceUnits limit text) = text) : sliceUnits limit text = text := by
  have symbols := congrArg String.toList restored
  unfold sanitizeText at symbols
  rw [String.toList_ofList] at symbols
  have starts : (sliceUnits limit text).toList <+: text.toList := by
    unfold sliceUnits
    rw [String.toList_ofList]
    exact cutUnits_prefix limit text.toList
  rw [← symbols] at starts
  have kept := replaceEach_eq_of_prefix redactionPatterns_foreign starts
  exact String.toList_injective (kept.symm.trans symbols)

/-- A text whose redaction is within a limit and leaves no secret behind. -/
def Settled (limit : Nat) (text : String) : Prop :=
  textUnits (sanitizeText text).toList ≤ limit ∧
    ∀ pattern ∈ redactionPatterns, pattern.foundIn (sanitizeText text).toList = false

/-- Cutting and redacting what was redacted changes nothing exactly where the text is settled. -/
theorem sanitizeText_again_iff (limit : Nat) (text : String) :
    sanitizeText (sliceUnits limit (sanitizeText text)) = sanitizeText text ↔ Settled limit text := by
  constructor
  · intro same
    have whole := sanitizeText_cut same
    refine ⟨?_, (sanitizeText_eq_self_iff _).mp ?_⟩
    · rw [← whole]
      exact textUnits_sliceUnits limit _
    · rw [whole] at same
      exact same
  · rintro ⟨short, absent⟩
    rw [sliceUnits_eq_self short]
    exact (sanitizeText_eq_self_iff _).mpr absent

end NancyMan.Telemetry
