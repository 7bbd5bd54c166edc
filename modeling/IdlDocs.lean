import IdlDocs.Description.Encoding
import IdlDocs.Idl.Encoding
import IdlDocs.Main
import IdlDocs.Pages.Generation
import IdlDocs.Registry.Sample
import IdlDocs.Proofs.Description.Dictionaries
import IdlDocs.Proofs.Interfaces.Listed
import IdlDocs.Proofs.Operations
import IdlDocs.Proofs.Idl.Statements
import IdlDocs.Proofs.Runs
import IdlDocs.Proofs.Pages.Together
import IdlDocs.Proofs.Pages.Written
import IdlDocs.Proofs.Pages.Inside
import IdlDocs.Proofs.Text.InStep
import IdlDocs.Proofs.Idl.Wildcards
import IdlDocs.Proofs.Idl.Joined
import IdlDocs.Proofs.Members.Sorting
import IdlDocs.Proofs.Interfaces.Partition
import IdlDocs.Proofs.Interfaces.Agreement
import IdlDocs.Proofs.Interfaces.Reordered
import IdlDocs.Proofs.Idl.Errors
import IdlDocs.Proofs.Idl.Types.Printed
import IdlDocs.Proofs.Files.Texts
import IdlDocs.Proofs.Registry.Copies
import IdlDocs.Proofs.Registry.Fallback
import IdlDocs.Proofs.Registry.Memory
import IdlDocs.Proofs.Idl.Encoding
import IdlDocs.Proofs.Description.Layout
import IdlDocs.Proofs.Idl.Words
import IdlDocs.Proofs.Idl.LeftOver
import IdlDocs.Proofs.Idl.Positions
import IdlDocs.Proofs.Idl.Mixins.Sources
import IdlDocs.Proofs.Description.Words
import IdlDocs.Proofs.Templates.Lines
import IdlDocs.Proofs.Pages.Items
import IdlDocs.Proofs.Pages.Sections
import IdlDocs.Proofs.Pages.Nested
import IdlDocs.Proofs.Pages.Total
import IdlDocs.Proofs.Members.Extraction
import IdlDocs.Proofs.Interfaces.EventInterface
import IdlDocs.Proofs.Interfaces.Parents
import IdlDocs.Proofs.Pages.Parameters
import IdlDocs.Proofs.Templates.Reading.Expressions
import IdlDocs.Proofs.Templates.Reading.Tags
import IdlDocs.Proofs.Templates.Sources
import IdlDocs.Proofs.Templates.Overrides
import IdlDocs.Proofs.CommandLine.Order
