import NamespaceAccess.Audit.Log
import NamespaceAccess.Directory
import NamespaceAccess.RuleChain
import NamespaceAccess.Session
import NamespaceAccess.WireFormat
import NamespaceAccess.Proofs.Answers
import NamespaceAccess.Proofs.Classification
import NamespaceAccess.Proofs.Courses
import NamespaceAccess.Proofs.Directory
import NamespaceAccess.Proofs.History
import NamespaceAccess.Proofs.Isolation
import NamespaceAccess.Proofs.Listing
import NamespaceAccess.Proofs.Recording
import NamespaceAccess.Proofs.Rendering
import NamespaceAccess.Proofs.Storage
import NamespaceAccess.Proofs.Tokens
import NamespaceAccess.Proofs.UsableGrants
import NamespaceAccess.Proofs.Noninterference
import NamespaceAccess.Proofs.DocumentReading
import NamespaceAccess.Proofs.Loading
import NamespaceAccess.Proofs.ClosedWorld
import NamespaceAccess.Proofs.Monotonicity
import NamespaceAccess.Proofs.Lookups
import NamespaceAccess.Proofs.Chains
import NamespaceAccess.Proofs.Spelling
import NamespaceAccess.Proofs.Reading
import NamespaceAccess.Proofs.Interleaving
import NamespaceAccess.Proofs.ListingRecords
import NamespaceAccess.Proofs.LogIntegrity
import NamespaceAccess.Proofs.RoundTrip
import NamespaceAccess.Proofs.BindingRules
import NamespaceAccess.Proofs.CatalogNames
import NamespaceAccess.Proofs.SubActions
import NamespaceAccess.Proofs.SettingsRules
import NamespaceAccess.Proofs.Lexing
import NamespaceAccess.Proofs.Parsing
import NamespaceAccess.Proofs.Members
import NamespaceAccess.Proofs.Decoding
