import NetworkFinality.Python.Text
import NetworkFinality.Python.Base64
import NetworkFinality.Python.Json
import NetworkFinality.Python.JsonText
import NetworkFinality.Python.DateTime
import NetworkFinality.Python.Dict
import NetworkFinality.Python.JsonSchema
import NetworkFinality.Semantics.Procedure
import NetworkFinality.Semantics.Pool
import NetworkFinality.Semantics.Claims
import NetworkFinality.Semantics.Serial
import NetworkFinality.Semantics.Timeline
import NetworkFinality.Semantics.Twin
import NetworkFinality.Semantics.Chain
import NetworkFinality.Semantics.Code
import NetworkFinality.Semantics.Transaction
import NetworkFinality.Semantics.Lockstep
import NetworkFinality.Model.Errors
import NetworkFinality.Model.Canonical
import NetworkFinality.Model.Models
import NetworkFinality.Model.Defaults
import NetworkFinality.Model.Schemas
import NetworkFinality.Model.Authority
import NetworkFinality.Model.Crypto
import NetworkFinality.Model.State
import NetworkFinality.Model.Evidence
import NetworkFinality.Model.Statements
import NetworkFinality.Model.World
import NetworkFinality.Model.Policy
import NetworkFinality.Model.Ped
import NetworkFinality.Model.Sink
import NetworkFinality.Model.System
import NetworkFinality.Model.Engine
import NetworkFinality.Model.Restart
import NetworkFinality.Refinement.ActivationTable
import NetworkFinality.Refinement.EvidenceTable
import NetworkFinality.Refinement.SameTables
import NetworkFinality.Refinement.Steps
import NetworkFinality.Refinement.TwinCalls
import NetworkFinality.Spec.CanonicalForm
import NetworkFinality.Spec.Encodable
import NetworkFinality.Spec.Binding
import NetworkFinality.Spec.Described
import NetworkFinality.Spec.Schemas
import NetworkFinality.Spec.Defaults
import NetworkFinality.Spec.DigestText
import NetworkFinality.Spec.Base64
import NetworkFinality.Spec.Encoding
import NetworkFinality.Spec.Policy
import NetworkFinality.Spec.Acceptance
import NetworkFinality.Spec.Ped
import NetworkFinality.Spec.Issue
import NetworkFinality.Spec.Outcome
import NetworkFinality.Spec.Sink
import NetworkFinality.Spec.Permit
import NetworkFinality.Safety.EvidenceChain
import NetworkFinality.Safety.TailDigest
import NetworkFinality.Safety.SinkAtomicity
import NetworkFinality.Safety.Duration
import NetworkFinality.Safety.Provenance
import NetworkFinality.Safety.EffectProvenance
import NetworkFinality.Safety.EffectLog
import NetworkFinality.Safety.AtMostOnce
import NetworkFinality.Safety.OrderIndependence
import NetworkFinality.Safety.Agreement
import NetworkFinality.Safety.EvidenceFirst
import NetworkFinality.Safety.SignedPayload
import NetworkFinality.Safety.Signatures
import NetworkFinality.Safety.Tightening
import NetworkFinality.Safety.Postcondition
import NetworkFinality.Safety.Commitment
import NetworkFinality.Safety.Currency
import NetworkFinality.Safety.BoundState
import NetworkFinality.Safety.CounterOrder
import NetworkFinality.Safety.Restart
import NetworkFinality.Safety.Backends
import NetworkFinality.Safety.EvidenceStores
import NetworkFinality.Safety.ActivationStores
import NetworkFinality.Safety.Answers
import NetworkFinality.Safety.Accounting
import NetworkFinality.Safety.Locks
import NetworkFinality.Safety.Linearizability
import NetworkFinality.Safety.Revocation
import NetworkFinality.Safety.SharedDirectory
import NetworkFinality.Safety.Issuance
import NetworkFinality.Safety.Benchmark
import NetworkFinality.Safety.Schemas
