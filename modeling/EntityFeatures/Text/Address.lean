import EntityFeatures.Text.Pattern

/-!
# Web and mail addresses

A token that is a web or a mail address as a whole is recognised by its form
alone. The two grammars are `Address.mailAddress` and `Address.webAddress`; a token that
matches both is a mail address. Blanks end an address everywhere, and
punctuation that sticks to an address makes the token something else.

Most tokens hold neither a full stop nor the mark that ends a scheme, and such a
token matches neither grammar. `Address.classify?` looks for these two first.
-/

namespace EntityFeatures

/-- The kinds of addresses. -/
inductive Address where
  | web
  | mail
  deriving DecidableEq, Repr

namespace Address

open Pattern

/-- The ASCII letters. -/
def letter : CharSet :=
  .union (.range 'A' 'Z') (.range 'a' 'z')

/-- The ASCII letters and digits. -/
def alphanumeric : CharSet :=
  .union letter (.range '0' '9')

/-- The characters of a label of a domain. -/
def labelCharacter : CharSet :=
  .union alphanumeric (.listed ['-'])

/-- The characters of the part of a mail address that stands before the at sign. -/
def mailboxCharacter : CharSet :=
  .union alphanumeric (.listed "!#$%&'*+/=?^_`\x7b|\x7d~-".toList)

/-- At least two ASCII letters: a top-level domain, known or not. -/
def anyTopDomain : Pattern :=
  concat [one letter, one letter, star (one letter)]

/-- A domain label of a mail address with its full stop: no hyphen at either end. -/
def mailLabel : Pattern :=
  concat
    [one alphanumeric, optional (seq (star (one labelCharacter)) (one alphanumeric)), literal "."]

/-- A domain label of a web address with its full stop. -/
def webLabel : Pattern :=
  seq (plus (one labelCharacter)) (literal ".")

/--
A mail address: an optional scheme, mailbox words between full stops, the at
sign, domain labels and a top-level domain.
-/
def mailAddress : Pattern :=
  concat
    [optional (literal "mailto:"), plus (one mailboxCharacter),
      star (seq (literal ".") (plus (one mailboxCharacter))), literal "@", plus mailLabel,
      anyTopDomain]

/-- The schemes that may begin a web address, in any case. -/
def scheme : Pattern :=
  oneOf (seq (word "http") (optional (word "s")))
    [word "ftp", word "ftps", word "file", word "sftp"]

/-- A scheme and a host, which may be any text up to the path or a blank. -/
def hostWithScheme : Pattern :=
  concat
    [scheme, literal "://",
      plus (one (.complement (.union .blank (.listed ['/', '?', '#']))))]

/-- A host that says it is part of the web: `www`, up to three digits, labels and a top domain. -/
def webHost : Pattern :=
  concat
    [word "www", atMost (one .decimalDigit) 3, literal ".", star webLabel, anyTopDomain]

/-- The top-level domains that make a host of a name without scheme, in any case. -/
def knownTopDomain : Pattern :=
  oneOf (word "com")
    (["org", "net", "edu", "gov", "mil", "int", "info", "biz", "name", "io", "eu", "cz", "sk",
      "de", "at", "pl", "uk", "us", "fr", "it", "es", "nl", "ru", "br", "pt"].map word)

/-- Labels before a known top-level domain. -/
def hostWithKnownDomain : Pattern :=
  seq (plus webLabel) knownTopDomain

/-- A colon and one to five digits. -/
def hostNumber : Pattern :=
  concat [literal ":", one .decimalDigit, atMost (one .decimalDigit) 4]

/-- The rest of a web address from its path, query or fragment on. -/
def path : Pattern :=
  seq (one (.listed ['/', '?', '#'])) (star (one (.complement .blank)))

/-- A web address: a host, and then perhaps a number and a path. -/
def webAddress : Pattern :=
  concat
    [oneOf hostWithScheme [webHost, hostWithKnownDomain], optional hostNumber, optional path]

/-- Whether the mark that ends a scheme stands somewhere in a text. -/
def mentionsScheme : List Char → Bool
  | ':' :: '/' :: '/' :: _ => true
  | _ :: rest => mentionsScheme rest
  | [] => false

/-- What kind of address a token is, if it is one. -/
def classify? (form : String) : Option Address :=
  let text := form.toList
  if !text.contains '.' && !mentionsScheme text then none
  else if mailAddress.accepts text then some .mail
  else if webAddress.accepts text then some .web
  else none

end Address

end EntityFeatures
