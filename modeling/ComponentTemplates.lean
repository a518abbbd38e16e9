import ComponentTemplates.Codec.Encode
import ComponentTemplates.Files.Tree
import ComponentTemplates.Json.Printer
import ComponentTemplates.Main
import ComponentTemplates.Proofs.Codec.Rearranging
import ComponentTemplates.Proofs.Codec.RoundTrip
import ComponentTemplates.Proofs.Command.Compile
import ComponentTemplates.Proofs.Execution.InnerMarkup
import ComponentTemplates.Proofs.Execution.LoopPosition
import ComponentTemplates.Proofs.Invocation.Targets
import ComponentTemplates.Proofs.Lookup.Printed
import ComponentTemplates.Proofs.Printed.Effect
import ComponentTemplates.Proofs.Rendering.AttributeOrder
import ComponentTemplates.Proofs.Rendering.Guises
import ComponentTemplates.Proofs.Rendering.Injection
import ComponentTemplates.Proofs.Rendering.Safety
import ComponentTemplates.Proofs.Scope.Root
import ComponentTemplates.Proofs.Statement.Modes
import ComponentTemplates.Proofs.Statement.Source
import ComponentTemplates.Proofs.Template.Cut
import ComponentTemplates.Proofs.Template.Outline
import ComponentTemplates.Proofs.Template.ReadBack
import ComponentTemplates.Proofs.Template.Variables
import ComponentTemplates.Proofs.Text.Quoting
import ComponentTemplates.Proofs.Value.Equality
import ComponentTemplates.Proofs.Value.Given
import ComponentTemplates.Proofs.Value.Methods
import ComponentTemplates.Proofs.Template.Arguments
