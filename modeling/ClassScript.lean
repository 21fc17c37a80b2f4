import ClassScript.ErrorClass
import ClassScript.Text.Printable
import ClassScript.Text.Quoted
import ClassScript.Text.Blank
import ClassScript.Decimal.Shortest
import ClassScript.Decimal.Layout
import ClassScript.Decimal.Nearest
import ClassScript.Real
import ClassScript.Numeral
import ClassScript.Syntax.Token
import ClassScript.Syntax.Scan
import ClassScript.Syntax.Incomplete
import ClassScript.Syntax.Tree
import ClassScript.Syntax.Alg
import ClassScript.Syntax.Parse
import ClassScript.Syntax.Printer
import ClassScript.Object.Fault
import ClassScript.Object.Class
import ClassScript.Object.Heap
import ClassScript.Object.Render
import ClassScript.Object.Convert
import ClassScript.Object.Instance
import ClassScript.Object.Identity
import ClassScript.Object.Workspace
import ClassScript.Object.FieldCache
import ClassScript.Eval.Scope
import ClassScript.Eval.Expr
import ClassScript.Eval.Stmt
import ClassScript.Eval.Meaning
import ClassScript.Eval.Session
import ClassScript.Config.Severity
import ClassScript.Config.Settings
import ClassScript.Config.Yaml
import ClassScript.Config.Toml
import ClassScript.Config.Load
import ClassScript.Cli
import ClassScript.Main
import ClassScript.Proofs.Binary64
import ClassScript.Proofs.Hashing
import ClassScript.Proofs.Rendering
import ClassScript.Proofs.Registry
import ClassScript.Proofs.Frame
import ClassScript.Proofs.Aliasing
import ClassScript.Proofs.Typing
import ClassScript.Proofs.TypeSafety
import ClassScript.Proofs.Tables
import ClassScript.Proofs.Faults
import ClassScript.Proofs.Caching
import ClassScript.Proofs.Parsing
import ClassScript.Proofs.ParseFolds
import ClassScript.Proofs.FaultSites
import ClassScript.Proofs.Scoping
import ClassScript.Proofs.Sharing
import ClassScript.Proofs.Folds
import ClassScript.Proofs.Lexical
import ClassScript.Proofs.ScanSteps
import ClassScript.Proofs.Bytes
import ClassScript.Proofs.Lexing
import ClassScript.Proofs.Rounding
import ClassScript.Proofs.IntComparison
import ClassScript.Proofs.Shadowing
import ClassScript.Proofs.Brackets
import ClassScript.Proofs.CacheAccount
import ClassScript.Proofs.Recovery
import ClassScript.Proofs.Operators
import ClassScript.Proofs.Identities
