import SqlWorkflow.Text.Blank
import SqlWorkflow.Text.Split

/-!
# Email addresses

An address is a local part and a domain with an `@` between them.  Both are made of atoms with
dots between them; the local part may instead be anything on one line between double quotes.  A
domain holds no `@`, so the last one of an address is the one between its parts.
-/

namespace SqlWorkflow.Email

/-- May the character stand in an atom? -/
def isAtomChar (c : Char) : Bool := !Text.isBlank c && !"<>()[].,;:@\"".toList.contains c

/-- Is the text one or more characters that may stand in an atom? -/
def isAtom (cs : List Char) : Bool := !cs.isEmpty && cs.all isAtomChar

/-- Is the text one or more characters of one line between double quotes? -/
def isQuoted : List Char → Bool
  | '"' :: rest =>
    match rest.reverse with
    | '"' :: inner => !inner.isEmpty && !inner.contains '\n'
    | _ => false
  | _ => false

/-- Is the text a local part? -/
def isLocal (cs : List Char) : Bool := (Text.splitAt '.' cs).all isAtom || isQuoted cs

/-- Is the text a domain: at least two atoms, the last one of at least two characters? -/
def isDomain (cs : List Char) : Bool :=
  let atoms := Text.splitAt '.' cs
  atoms.all isAtom && 2 ≤ atoms.length && atoms.getLast?.any (2 ≤ ·.length)

/-- The text before the last `@` and the text after it. -/
def parts? (cs : List Char) : Option (List Char × List Char) :=
  match (Text.splitAt '@' cs).reverse with
  | domain :: before :: earlier =>
    some (Text.joinAt '@' (before :: earlier).reverse, domain)
  | _ => none

/-- Is the text an address? -/
def isValid (text : String) : Bool :=
  match parts? text.toList with
  | some (localPart, domain) => isLocal localPart && isDomain domain
  | none => false

end SqlWorkflow.Email
