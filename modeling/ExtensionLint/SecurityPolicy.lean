import ExtensionLint.Catalog
import ExtensionLint.Text.Ascii
import ExtensionLint.Text.Blank
/-!
Content security policies. A policy is a text of directives between semicolons; a directive is a
name and source tokens, and of a repeated name only the first counts. A policy is insecure when
scripts may come from anywhere but the package. The evaluation of strings is a finding of its own.
-/

namespace ExtensionLint.SecurityPolicy

/-- The directives of a policy with their source tokens, names in small letters. The first directive
of a name is the one that counts. -/
abbrev Directives := List (String × List String)

/-- The name and the tokens of the text between two semicolons, unless it is blank. -/
def directive? (s : List Char) : Option (String × List String) :=
  match Text.fields Text.isBlank s with
  | [] => none
  | name :: tokens => some (String.ofList (Text.lower name), tokens.map String.ofList)

def parse (policy : String) : Directives :=
  (Text.splitBy (· == ';') policy.toList).filterMap directive?

def Directives.get? (directives : Directives) (name : String) : Option (List String) :=
  directives.lookup name

/-- The directives that govern scripts, in the order in which they are examined. -/
def scriptDirectives : List String :=
  ["default-src", "script-src", "script-src-elem", "script-src-attr", "worker-src"]

def safeKeywords : List String := ["'self'", "'none'", "'strict-dynamic'", "'wasm-unsafe-eval'"]

/-- How the tokens start that name one script. -/
def safeOpenings : List String := ["'nonce-", "'sha256-", "'sha384-", "'sha512-"]

/-- Whether a token only lets in scripts of the package or single known ones. -/
def isSafe (token : String) : Bool :=
  let word := Text.lower token.toList
  safeKeywords.any (fun keyword => keyword.toList == word) ||
    safeOpenings.any fun opening =>
      Text.startsWith opening.toList word && Text.endsWith "'".toList word

/-- Whether a token allows the evaluation of strings. -/
def isEval (token : String) : Bool := Text.sameLetters token.toList "'unsafe-eval'".toList

/-- What a policy allows. -/
@[ext]
structure Analysis where
  insecure : Bool
  unsafeEval : Bool
  deriving DecidableEq, Repr

/-- Examines one directive. A script directive that is safe throughout makes up for a missing or
broad default. -/
def examine (directives : Directives) (found : Analysis) (name : String) : Analysis :=
  match directives.get? name with
  | none => found
  | some tokens =>
      if found.insecure && name = "script-src" && tokens.all isSafe then
        { found with insecure := false }
      else
        { insecure := found.insecure || tokens.any fun token => !isEval token && !isSafe token
          unsafeEval := found.unsafeEval || tokens.any isEval }

/-- What a policy allows, a policy without a default being insecure until shown otherwise. -/
def analyze (policy : String) : Analysis :=
  let directives := parse policy
  scriptDirectives.foldl (examine directives)
    ⟨(directives.get? "default-src").isNone, false⟩

def check (catalog : Catalog) (policy property : String) : List Diagnostic :=
  let found := analyze policy
  let values := [("property", property)]
  (if found.unsafeEval then [catalog.render .manifestCspUnsafeEval values] else []) ++
    (if found.insecure then [catalog.render .manifestCsp values] else [])

end ExtensionLint.SecurityPolicy
