import WhenClause.Clause.Join
import WhenClause.Clause.Order
import WhenClause.Clause.Reading
import WhenClause.Command.Arguments
import WhenClause.Command.Check
import WhenClause.Command.LogLevel
import WhenClause.Command.Pages
import WhenClause.Command.Run
import WhenClause.Constants
import WhenClause.Diagnostics
import WhenClause.Main
import WhenClause.Proofs.Parse.Canonical
import WhenClause.Proofs.Parse.Errors
import WhenClause.Proofs.Parse.Folding
import WhenClause.Proofs.Parse.Meaning
import WhenClause.Proofs.Parse.Reserialization
import WhenClause.Proofs.Parse.RoundTrip
import WhenClause.Regex.Accept
import WhenClause.Scan.Scanner
import WhenClause.Session
import WhenClause.Proofs.Scan.Surroundings
import WhenClause.Proofs.Parse.Grouping
import WhenClause.Proofs.Scan.OnDemand
import WhenClause.Proofs.Command.Arguments
import WhenClause.Proofs.Command.Check
import WhenClause.Proofs.Parse.Session
import WhenClause.Proofs.Clause.Algebra
import WhenClause.Proofs.Clause.Identity
import WhenClause.Proofs.Regex.Sets
import WhenClause.Proofs.Regex.Brackets
import WhenClause.Proofs.Regex.Comments
import WhenClause.Proofs.Parse.QuotedRegex
import WhenClause.Proofs.Parse.Operands
import WhenClause.Proofs.Scan.Respacing
import WhenClause.Proofs.Parse.Layout
import WhenClause.Proofs.Parse.QuotedLiteral
import WhenClause.Proofs.Scan.Locality
import WhenClause.Proofs.Parse.Rebuilding
import WhenClause.Proofs.Clause.Json
import WhenClause.Proofs.Parse.BareValues
import WhenClause.Proofs.Scan.LongestWord
import WhenClause.Proofs.Scan.RegexTokens
