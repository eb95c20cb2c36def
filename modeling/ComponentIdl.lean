import ComponentIdl.LogStyle
import ComponentIdl.Project
import ComponentIdl.Proofs.Graph.Reach
import ComponentIdl.Proofs.Graph.CycleSearch
import ComponentIdl.Proofs.SelfReference
import ComponentIdl.Proofs.Graph.NearestFirst
import ComponentIdl.Proofs.Binding
import ComponentIdl.Proofs.Builder.Step
import ComponentIdl.Proofs.Evaluation
import ComponentIdl.Proofs.Wiring
import ComponentIdl.Proofs.Builder.Wiring
import ComponentIdl.Proofs.DottedName
import ComponentIdl.Proofs.Namespaces
import ComponentIdl.Proofs.Store.Registry
import ComponentIdl.Proofs.Builder.Registry
import ComponentIdl.Proofs.Builder.Fresh
import ComponentIdl.Proofs.Builder.Getters
import ComponentIdl.Proofs.Conflict.Remarks
import ComponentIdl.Proofs.Conflict.Own
import ComponentIdl.Proofs.Conflict.Sound
import ComponentIdl.Proofs.Derivation.Members
import ComponentIdl.Proofs.Derivation.Step
import ComponentIdl.Proofs.Binding.Bound
import ComponentIdl.Proofs.Store.Similar
import ComponentIdl.Proofs.Compile
import ComponentIdl.Proofs.Acceptance
import ComponentIdl.Proofs.Conflict.Links
import ComponentIdl.Proofs.Overrides
import ComponentIdl.Proofs.Shadowing
import ComponentIdl.Proofs.Evaluation.Chain
import ComponentIdl.Proofs.Evaluation.Search
import ComponentIdl.Proofs.Evaluation.Exact
import ComponentIdl.Proofs.Binding.Sites
import ComponentIdl.Proofs.Binding.Exact
import ComponentIdl.Proofs.Builder.Remarks
import ComponentIdl.Proofs.EventTypes
import ComponentIdl.Proofs.Reached
import ComponentIdl.Proofs.Store.Ledger
import ComponentIdl.Proofs.Builder.Ledger
import ComponentIdl.Proofs.Derivation.Ledger
import ComponentIdl.Proofs.Registry
import ComponentIdl.Proofs.Derivation.Wiring
import ComponentIdl.Proofs.Accessors
import ComponentIdl.Proofs.Store.Handles
import ComponentIdl.Proofs.Builder.Handles
import ComponentIdl.Proofs.Conflict.Handles
import ComponentIdl.Proofs.Derivation.Handles
import ComponentIdl.Proofs.Derivation.Descent
import ComponentIdl.Proofs.Handles
import ComponentIdl.Proofs.Repeat.Cycles
import ComponentIdl.Proofs.Repeat.Members
import ComponentIdl.Proofs.Builder.Enums
import ComponentIdl.Proofs.Repeat.Binding
import ComponentIdl.Proofs.Repeat.Evaluation
import ComponentIdl.Proofs.Repeat.Derivation
import ComponentIdl.Proofs.Repeat
import ComponentIdl.Proofs.Metadata
import ComponentIdl.Proofs.Builder.Plain
import ComponentIdl.Proofs.Derivation.Links
import ComponentIdl.Proofs.Derivation.Added
import ComponentIdl.Proofs.Switches
import ComponentIdl.Proofs.Builder.Beside
import ComponentIdl.Proofs.Builder.Whole
import ComponentIdl.Proofs.Store.Unblocked
import ComponentIdl.Proofs.Builder.Regrouping
import ComponentIdl.Proofs.Regrouping
import ComponentIdl.Proofs.Store.Entities
import ComponentIdl.Proofs.Builder.Reordering
import ComponentIdl.Proofs.Store.Outcomes
import ComponentIdl.Proofs.Reordering.Binding
import ComponentIdl.Proofs.Reordering.Cycles
import ComponentIdl.Proofs.Reordering
import ComponentIdl.Proofs.NameTable.History
import ComponentIdl.Proofs.Namespaces.History
import ComponentIdl.Proofs.Builder.Placed
import ComponentIdl.Proofs.PassedOver
import ComponentIdl.Proofs.Builder.Firsts
import ComponentIdl.Proofs.FirstDeclaration
import ComponentIdl.Proofs.Graph.Distance
import ComponentIdl.Proofs.Inheritance
import ComponentIdl.Proofs.Conflict.Reports
import ComponentIdl.Proofs.Conflict.Contested
import ComponentIdl.Proofs.Conflict.Overloads
import ComponentIdl.Proofs.Builder.Tokens
import ComponentIdl.Proofs.Conflict.Sources
import ComponentIdl.Proofs.Faithful
import ComponentIdl.Proofs.Derivation.Original
import ComponentIdl.Proofs.Derivation.Settled
import ComponentIdl.Proofs.Enrollment
import ComponentIdl.Proofs.Derivation.Copies
import ComponentIdl.Proofs.DerivedMembers
import ComponentIdl.Proofs.Builder.AccessorBodies
import ComponentIdl.Proofs.Builder.Members
import ComponentIdl.Proofs.Builder.Body
import ComponentIdl.Proofs.Expansion
import ComponentIdl.Proofs.Fragments
import ComponentIdl.Proofs.Integer
import ComponentIdl.Proofs.Literal
import ComponentIdl.Proofs.Evaluation.Range
import ComponentIdl.Proofs.LetterCase
import ComponentIdl.Proofs.OneName
import ComponentIdl.Proofs.EarlyComparison
import ComponentIdl.Proofs.Text
import ComponentIdl.Proofs.Hash.XxHash
import ComponentIdl.Proofs.Identity
import ComponentIdl.Proofs.Signature
import ComponentIdl.Proofs.Manifest
import ComponentIdl.Proofs.Loading
import ComponentIdl.Proofs.DottedName.RoundTrip
import ComponentIdl.Proofs.Manifest.Underlying
import ComponentIdl.Proofs.Graph.Iterations
import ComponentIdl.Proofs.Evaluation.Checked
import ComponentIdl.Proofs.Evaluation.Iterations
