import CardAccess.Main
import CardAccess.Messaging.Batch
import CardAccess.Messaging.Card
import CardAccess.Proofs.Messaging.CounterReuse
import CardAccess.Proofs.Messaging.Acceptance
import CardAccess.Proofs.Messaging.Record
import CardAccess.Proofs.Messaging.Coverage
import CardAccess.Proofs.Messaging.Status
import CardAccess.Proofs.Messaging.Refusal
import CardAccess.Proofs.Tlv.RoundTrip
import CardAccess.Proofs.Tlv.Canonical
import CardAccess.Proofs.Tlv.Fitting
import CardAccess.Proofs.Tlv.Consistency
import CardAccess.Proofs.Tlv.Offset
import CardAccess.Proofs.Curve.Modular
import CardAccess.Proofs.Curve.Domain
import CardAccess.Proofs.Curve.Group
import CardAccess.Proofs.Curve.Multiple
import CardAccess.Proofs.Curve.Checked
import CardAccess.Proofs.Curve.Encoding
import CardAccess.Proofs.Certificate.Description
import CardAccess.Proofs.Key.Public
import CardAccess.Proofs.Key.Checked
import CardAccess.Proofs.Key.ReadBack
import CardAccess.Proofs.Key.Private
import CardAccess.Proofs.KeyService.Dialogue
import CardAccess.Proofs.KeyService.Calls
import CardAccess.Proofs.KeyService.Store
import CardAccess.Proofs.KeyService.Provision
import CardAccess.Proofs.KeyService.Interleaving
import CardAccess.Proofs.KeyService.FiniteMap
import CardAccess.Proofs.Request.Generation
import CardAccess.Proofs.Request.Cleaning
import CardAccess.Proofs.Request.Progress
import CardAccess.Proofs.Request.BodySigning
import CardAccess.Proofs.Request.Extensions
import CardAccess.Proofs.Request.Reference
import CardAccess.Proofs.Request.ReadBack
import CardAccess.Proofs.Request.Operations
import CardAccess.Proofs.Request.Mutations
import CardAccess.Proofs.Request.Wrapping
import CardAccess.Proofs.Request.RawSigner
import CardAccess.Proofs.Request.Keys
import CardAccess.Proofs.Tlv.InPlace
import CardAccess.Proofs.Request.Failure
import CardAccess.Proofs.Bits
import CardAccess.Proofs.Signature.Verification
import CardAccess.Proofs.Hash
import CardAccess.Proofs.Signature.Deterministic
import CardAccess.Proofs.CommandLine.InputFile
