import Thorax.Frontend.References
import Thorax.Frontend.Selector
import Thorax.Library.Utf8
import Thorax.Ops.Secrets

/-!
# The output of a secret

A value that is text is shown as it is, any other in hexadecimal digits; in JSON the name of a member
says which. The fields of a secret are members of an object of their own.
-/

namespace Thorax

open Collections

/-- The members of the output. -/
inductive JsonMember where
  | null
  | text (value : String)
  | object (members : BTreeMap String String)

/-- What is written to the standard output: an object, or the bytes of the secret, after which a line
feed follows on the standard error. -/
inductive PlaintextOutput where
  | json (payload : BTreeMap String JsonMember)
  | raw (bytes : Bytes) (terminalNewline : Bool)

def hexBytes (bytes : Bytes) : String := String.ofList (Hex.encode bytes)

def SecretPlaintext.isUtf8 (self : SecretPlaintext) : Bool := (Utf8.decode self.plaintext).isSome

def SecretFieldEntryV1.isUtf8 (self : SecretFieldEntryV1) : Bool := (Utf8.decode self.value).isSome

/-- A member for bytes: the text under the name, or the digits under the name with a suffix. -/
def shownMember (name : String) (bytes : Bytes) : String × String :=
  match Utf8.decode bytes with
  | some text => (name, text)
  | none => (name ++ "_hex", hexBytes bytes)

def fieldMember (field : SecretFieldEntryV1) : String × String := shownMember field.key field.value

def fieldsObject (fields : List SecretFieldEntryV1) : BTreeMap String String :=
  (∅ : BTreeMap String String).insertMany (fields.map fieldMember)

def plaintextPayload (opened : SecretPlaintext) (user : ResolvedUserRef) :
    BTreeMap String JsonMember :=
  let payload := (((∅ : BTreeMap String JsonMember).insert "selector"
    (.text (selectorString opened.selector))).insert "user" (.text (userHex user.userId))).insert
      "user_handle" ((user.handle.map .text).getD .null)
  let primary := shownMember "plaintext" opened.plaintext
  let payload := payload.insert primary.1 (.text primary.2)
  if opened.fields = [] then payload
  else payload.insert "fields" (.object (fieldsObject opened.fields))

/-- On a terminal a text gets the line feed it lacks. -/
def writePlaintext (jsonOutput isTerminal : Bool) (opened : SecretPlaintext)
    (user : ResolvedUserRef) : PlaintextOutput :=
  if jsonOutput then .json (plaintextPayload opened user)
  else .raw opened.plaintext
    (opened.isUtf8 && decide (opened.plaintext.getLast? ≠ some 10) && isTerminal)

end Thorax
