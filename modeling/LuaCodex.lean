import LuaCodex.Main
import LuaCodex.Proofs.Text.Keyword
import LuaCodex.Proofs.Text.Lines
import LuaCodex.Proofs.Meaning.Capture
import LuaCodex.Proofs.Meaning.Priority
import LuaCodex.Proofs.Extraction.Description
import LuaCodex.Proofs.Extraction.Step
import LuaCodex.Proofs.Extraction.Outline
import LuaCodex.Proofs.Extraction.Block
import LuaCodex.Proofs.Extraction.Section
import LuaCodex.Proofs.Extraction.Classes
import LuaCodex.Proofs.Extraction.Review
import LuaCodex.Proofs.Extraction.ReturnStyle
import LuaCodex.Proofs.Document.Unite
import LuaCodex.Proofs.Document.Regroup
import LuaCodex.Proofs.Extraction.Join
import LuaCodex.Proofs.Json.Print
import LuaCodex.Proofs.Json.Record
import LuaCodex.Proofs.Codex.Json
import LuaCodex.Proofs.Supplement.RoundTrip
import LuaCodex.Proofs.Codex.Layers
import LuaCodex.Proofs.Codex.Naming
import LuaCodex.Proofs.Path.Arrange
import LuaCodex.Proofs.FileTree.Write
import LuaCodex.Proofs.CommandLine.Files
import LuaCodex.Proofs.Extraction.Growth
import LuaCodex.Proofs.Document.WellFormed
import LuaCodex.Proofs.Meaning.WellFormed
import LuaCodex.Proofs.Extraction.WellFormed
import LuaCodex.Proofs.FileTree.Directories
import LuaCodex.Proofs.FileTree.Listing
import LuaCodex.Proofs.FileTree.Components
import LuaCodex.Proofs.Wildcard.Expansion
import LuaCodex.Proofs.CommandLine.Effect
import LuaCodex.Proofs.CommandLine.Inputs
import LuaCodex.Proofs.Json.Token
import LuaCodex.Proofs.Json.Written
import LuaCodex.Proofs.Json.Taken
import LuaCodex.Proofs.Json.Check
import LuaCodex.Proofs.Json.Stable
import LuaCodex.Proofs.Json.Attentive
import LuaCodex.Proofs.Supplement.Written
import LuaCodex.Proofs.Supplement.Rearranged
import LuaCodex.Proofs.Meaning.Declaration
import LuaCodex.Proofs.Meaning.Tag
import LuaCodex.Proofs.Meaning.Field
import LuaCodex.Proofs.Extraction.Inert
import LuaCodex.Proofs.Json.Truncated
import LuaCodex.Proofs.Supplement.Truncated
import LuaCodex.Proofs.Document.Permuted
import LuaCodex.Proofs.Extraction.Ending
import LuaCodex.Proofs.Codex.Outline
import LuaCodex.Proofs.Codex.Links
import LuaCodex.Proofs.Document.Decoded
import LuaCodex.Proofs.Extraction.DescriptionLines
import LuaCodex.Proofs.Extraction.Filing
import LuaCodex.Proofs.Text.ByteCut
import LuaCodex.Proofs.Text.Encoded
