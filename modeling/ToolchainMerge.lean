import ToolchainMerge.Main
import ToolchainMerge.Snapshot
import ToolchainMerge.Toolchain.Builder
import ToolchainMerge.Proofs.Atomicity
import ToolchainMerge.Proofs.Branching
import ToolchainMerge.Proofs.Reproduction
import ToolchainMerge.Proofs.Scanner
import ToolchainMerge.Proofs.Reader
import ToolchainMerge.Proofs.Layout
import ToolchainMerge.Proofs.Program
import ToolchainMerge.Proofs.Body
import ToolchainMerge.Proofs.RoundTrip
import ToolchainMerge.Proofs.Reordering
import ToolchainMerge.Proofs.Hygiene
import ToolchainMerge.Proofs.Minimality
import ToolchainMerge.Proofs.Refusal
import ToolchainMerge.Proofs.Document
import ToolchainMerge.Proofs.JsonGrammar
import ToolchainMerge.Proofs.Indentation
import ToolchainMerge.Proofs.Violation
import ToolchainMerge.Proofs.Component
import ToolchainMerge.Proofs.Shape
import ToolchainMerge.Proofs.Canonical
import ToolchainMerge.Proofs.Snapshot
import ToolchainMerge.Proofs.PathParts
import ToolchainMerge.Proofs.RecordRejection
