import CardAccess.CommandLine.InputFile
import CardAccess.CommandLine.Script
import CardAccess.Request.Request

/-!
# Looking at certificates and requests

The tree of elements is shown for any input that has one; what follows depends on
whether it is a certificate or a request.  A request without its wrapper has the
tag of a certificate, but only certificates have dates.
-/

namespace CardAccess
namespace CommandLine

namespace Command

def readInput (path : String) : Command Bytes := do
  match ← act (.readFile path) with
  | none => throw (.reading path)
  | some bytes => ofExcept (fun _ => .decoding path) (InputFile.decode (bytes : Bytes))

def readCertificate (path : String) : Command Certificate := do
  ofCard (Certificate.ofBytes (← readInput path))

def readPrivateKey (path : String) : Command PrivateKey := do
  ofExcept (fun _ => .loadingKey path) (PrivateKey.ofPkcs8 (← readInput path))

end Command

namespace Inspection

open Command

def shapeText : RequestShape → String
  | .authentication => "Authentication"
  | .bare => "Bare"

def stateText : SigningState → String
  | .unsigned => "Unsigned"
  | .innerSigned => "InnerSigned"
  | .outerSigned => "OuterSigned"

def printOptional (label : String) : Option String → Command Unit
  | none => pure ()
  | some text => printLine (label ++ text)

def printCertificate (c : Certificate) : Command Unit := do
  printLine "Certificate"
  printLine ("  CHR: " ++ (← ofCard c.holderReference))
  printLine ("  CAR: " ++ (← ofCard c.authorityReference))
  printLine ("  Algorithm: " ++ (← ofCard c.publicKeyId).toText)
  printOptional "  Effective: " ((← ofCard c.effectiveDate).map Date.display)
  printOptional "  Expires: " ((← ofCard c.expirationDate).map Date.display)
  let chat ← ofCard c.chat
  printOptional "  CHAT: " (chat.map fun chat =>
    chat.role.toText ++ " " ++ Hex.encodeUpper chat.authorization)

def printRequest (r : Request) : Command Unit := do
  printLine ("Certificate request (" ++ shapeText r.shape ++ ", " ++ stateText r.state ++ ")")
  printLine ("  CHR: " ++ (← ofCard r.holderReference))
  printOptional "  CAR: " r.authorityReference
  printOptional "  Outer CAR: " r.outerAuthorityReference
  printLine ("  Algorithm: " ++ (← ofCard r.publicKey).id.toText)

/-- The certificate that an element is, if it is one with a date. -/
def datedCertificate (node : Tlv) : Except Error (Option Certificate) :=
  if node.tag = Layout.cvCertificate then do
    let certificate ← Certificate.ofTlv node
    return if (← certificate.effectiveDate).isSome then some certificate else none
  else .ok none

def inspect (path : String) : Command Unit := do
  let bytes ← readInput path
  let node ← ofExcept (fun e => .card (.ofDecode e)) (Tlv.parse bytes)
  act (.print node.display)
  printLine ""
  match ← ofCard (datedCertificate node) with
  | some certificate => printCertificate certificate
  | none => printRequest (← ofCard (Request.ofTlv node))

/-- Check the inner signature of a request and, given the certificate of its
signer, the outer one.  The signer's key may be on the curve of another
certificate. -/
def verify (path : String) (signer domain : Option String) : Command Unit := do
  let request ← ofCard (Request.ofBytes (← readInput path))
  ofCard request.verifyInner
  printLine ("Inner signature of " ++ (← ofCard request.holderReference) ++ " is valid")
  match signer with
  | none => pure ()
  | some signer =>
    let signer ← readCertificate signer
    let domain ← domain.mapM fun path => do ofCard (← readCertificate path).domain
    let reference ← ofCard signer.holderReference
    ofCard (do request.verifyOuter (← signer.publicKey domain))
    printLine ("Outer signature by " ++ reference ++ " is valid")

end Inspection
end CommandLine
end CardAccess
