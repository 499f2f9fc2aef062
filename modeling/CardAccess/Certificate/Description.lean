import CardAccess.Error
import CardAccess.Hash.Algorithm
import CardAccess.Text

/-!
# Certificate descriptions

A description names the issuer and the subject of a certificate and the terms of
usage that are shown to the holder of a card.  Every part sits in an element with
a tag of its own, so reading picks the parts by tag, and a certificate is bound
to a description by the hash of its bytes.
-/

namespace CardAccess

/-- The terms of usage in one of three formats. -/
inductive Terms where
  | plain (text : String)
  | html (text : String)
  | pdf (content : Bytes)
  deriving DecidableEq, Repr

/-- What a certificate is described with. -/
structure Description where
  issuerName : String
  issuerUrl : Option String
  subjectName : String
  subjectUrl : Option String
  terms : Terms
  redirectUrl : Option String
  commCertificates : List Bytes
  deriving DecidableEq, Repr

namespace Terms

/-- The identifier of the plain format, `0.4.0.127.0.7.3.1.3.1.1`. -/
def plainId : ObjectId := ⟨[0x04, 0x00, 0x7F, 0x00, 0x07, 0x03, 0x01, 0x03, 0x01, 0x01]⟩

/-- The identifier of the HTML format, `0.4.0.127.0.7.3.1.3.1.2`. -/
def htmlId : ObjectId := ⟨[0x04, 0x00, 0x7F, 0x00, 0x07, 0x03, 0x01, 0x03, 0x01, 0x02]⟩

/-- The identifier of the PDF format, `0.4.0.127.0.7.3.1.3.1.3`. -/
def pdfId : ObjectId := ⟨[0x04, 0x00, 0x7F, 0x00, 0x07, 0x03, 0x01, 0x03, 0x01, 0x03]⟩

def format : Terms → ObjectId
  | .plain _ => plainId
  | .html _ => htmlId
  | .pdf _ => pdfId

def toTlv : Terms → Tlv
  | .plain text => .primitive Tlv.Tag.utf8String (Text.toUtf8 text)
  | .html text => .primitive Tlv.Tag.ia5String (Text.toUtf8 text)
  | .pdf content => .primitive Tlv.Tag.octetString content

/-- Read the value of the terms in the given format.  A text is checked before
its format is. -/
def ofValue (format : ObjectId) (value : Bytes) : Except Error Terms :=
  if format = pdfId then .ok (.pdf value)
  else
    match Text.ofUtf8? value with
    | none => .error (.invalidCertificate .termsNotUtf8)
    | some text =>
      if format = htmlId then .ok (.html text)
      else if format = plainId then .ok (.plain text)
      else .error (.invalidCertificate .unknownDescriptionType)

end Terms

namespace Description

/-- The identifier of descriptions in extensions, `0.4.0.127.0.7.3.1.3.1`. -/
def extensionId : ObjectId := ⟨[0x04, 0x00, 0x7F, 0x00, 0x07, 0x03, 0x01, 0x03, 0x01]⟩

def issuerNameTag : Tlv.Tag := ⟨0xA1⟩
def issuerUrlTag : Tlv.Tag := ⟨0xA2⟩
def subjectNameTag : Tlv.Tag := ⟨0xA3⟩
def subjectUrlTag : Tlv.Tag := ⟨0xA4⟩
def termsTag : Tlv.Tag := ⟨0xA5⟩
def redirectUrlTag : Tlv.Tag := ⟨0xA6⟩
def commCertificatesTag : Tlv.Tag := ⟨0xA7⟩

/-- A description without the optional parts. -/
def create (issuerName subjectName : String) (terms : Terms) : Description :=
  { issuerName, issuerUrl := none, subjectName, subjectUrl := none, terms, redirectUrl := none,
    commCertificates := [] }

/-! ## Writing -/

def nameTlv (tag : Tlv.Tag) (text : String) : Tlv :=
  .constructed tag [.primitive Tlv.Tag.utf8String (Text.toUtf8 text)]

def urlTlv (tag : Tlv.Tag) : Option String → List Tlv
  | none => []
  | some text => [.constructed tag [.primitive Tlv.Tag.printableString (Text.toUtf8 text)]]

def commCertificatesTlv (hashes : List Bytes) : List Tlv :=
  if hashes.isEmpty then []
  else [.constructed commCertificatesTag
    [.constructed Tlv.Tag.set (hashes.map (.primitive Tlv.Tag.octetString))]]

def toTlv (d : Description) : Tlv :=
  .constructed Tlv.Tag.sequence
    ([d.terms.format.toTlv, nameTlv issuerNameTag d.issuerName]
      ++ urlTlv issuerUrlTag d.issuerUrl
      ++ [nameTlv subjectNameTag d.subjectName]
      ++ urlTlv subjectUrlTag d.subjectUrl
      ++ [.constructed termsTag [d.terms.toTlv]]
      ++ urlTlv redirectUrlTag d.redirectUrl
      ++ commCertificatesTlv d.commCertificates)

def encode (d : Description) : Bytes := d.toTlv.encode

/-- The digest that a certificate is bound to the description by. -/
def digest (d : Description) (hash : HashAlgorithm) : Bytes := hash.digest d.encode

/-! ## Reading -/

/-- The first element inside the first child with the given tag. -/
def part? (node : Tlv) (tag : Tlv.Tag) : Option Tlv :=
  (node.first? tag).bind fun holder => holder.children.head?

def text? (node : Tlv) (tag : Tlv.Tag) : Except Error (Option String) :=
  match part? node tag with
  | none => .ok none
  | some found =>
    match Text.ofUtf8? found.value with
    | none => .error (.invalidCertificate .descriptionNotUtf8)
    | some text => .ok (some text)

def text (node : Tlv) (tag : Tlv.Tag) (name : String) : Except Error String := do
  match ← text? node tag with
  | none => .error (.missingElement name)
  | some text => .ok text

def ofTlv (node : Tlv) : Except Error Description := do
  if node.tag ≠ Tlv.Tag.sequence then .error (.invalidCertificate .notDescription)
  else
    match node.first? Tlv.Tag.objectIdentifier with
    | none => .error (.missingElement "description type")
    | some formatNode =>
      let format ← formatNode.toObjectId.mapError .tlv
      match part? node termsTag with
      | none => .error (.missingElement "terms of usage")
      | some termsNode =>
        let terms ← Terms.ofValue format termsNode.value
        let commCertificates := match part? node commCertificatesTag with
          | none => []
          | some hashes => hashes.children.map Tlv.value
        let issuerName ← text node issuerNameTag "issuer name"
        let issuerUrl ← text? node issuerUrlTag
        let subjectName ← text node subjectNameTag "subject name"
        let subjectUrl ← text? node subjectUrlTag
        let redirectUrl ← text? node redirectUrlTag
        .ok ⟨issuerName, issuerUrl, subjectName, subjectUrl, terms, redirectUrl,
          commCertificates⟩

def ofBytes (bytes : Bytes) : Except Error Description := do
  ofTlv (← (Tlv.parse bytes).mapError .ofDecode)

end Description
end CardAccess
