import CardAccess.Certificate.Description
import CardAccess.Request.Request

/-!
# Extensions of a request

A request carries the extensions of the certificate that it renews.  One of
them, marked with the identifier of descriptions, binds the description by its
hash: it is updated where it is among the first two, appended to others, and put
into extensions of its own where there are none.
-/

namespace CardAccess
namespace Request

/-- The request after an operation that succeeded. -/
def committed {α : Type} : Except Error α × Request → Except Error Request
  | (.ok _, r) => .ok r
  | (.error e, _) => .error e

/-- The request with the extensions of a certificate in the place of its own. -/
def copyExtensions (r : Request) (old : Certificate) : Except Error Request := do
  let r ← committed (r.removePart .extensions)
  match old.extensions with
  | none => .ok r
  | some extensions => committed (r.addPart .certificateBody extensions)

def partId? (r : Request) (part : RequestPart) : Except Error (Option ObjectId) :=
  match r.part? part with
  | none => .ok none
  | some found => (found.toObjectId.mapError .tlv).map some

/-- The extension that binds a description. -/
def descriptionTemplate (digest : Bytes) : Tlv :=
  .constructed Layout.discretionaryTemplate
    [Description.extensionId.toTlv, .primitive Layout.extensionHash digest]

/-- The request bound to a description, which is hashed as the root's key says. -/
def setDescription (r : Request) (description : Description) (root : Certificate) :
    Except Error Request := do
  let algorithm ← root.signatureAlgorithm
  let digest := description.digest algorithm.hash
  let first ← r.partId? .firstTemplateId
  if first = some Description.extensionId then
    committed (r.setValue .firstTemplateHash digest)
  else
    let second ← r.partId? .secondTemplateId
    if second = some Description.extensionId then
      committed (r.setValue .secondTemplateHash digest)
    else if (r.part? .firstTemplate).isSome then
      committed (r.addPart .extensions (descriptionTemplate digest))
    else
      let r ← committed (r.removePart .extensions)
      committed (r.addPart .certificateBody
        (.constructed Layout.extensions [descriptionTemplate digest]))

end Request
end CardAccess
