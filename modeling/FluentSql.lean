import FluentSql.Proofs.References
import FluentSql.Script.Function
import FluentSql.Script.Session
import FluentSql.Proofs.Alignment.Conditions
import FluentSql.Proofs.Alignment.Selecting
import FluentSql.Proofs.Building.Adding
import FluentSql.Proofs.Building.Call
import FluentSql.Proofs.Building.Copying
import FluentSql.Proofs.Boundary.Basic
import FluentSql.Proofs.Boundary.Reading
import FluentSql.Proofs.Converting
import FluentSql.Proofs.Boundary.Copying
import FluentSql.Proofs.Boundary.Building
import FluentSql.Proofs.Boundary.Calls
import FluentSql.Proofs.Boundary.Scripts
import FluentSql.Proofs.Keywords
import FluentSql.Proofs.Apart
import FluentSql.Proofs.Cloning
import FluentSql.Proofs.Aligned
import FluentSql.Proofs.Alignment.Changing
import FluentSql.Proofs.Building.Changing
import FluentSql.Proofs.Changing
import FluentSql.Proofs.Restricting
import FluentSql.Proofs.Revising
import FluentSql.Proofs.Edits.Basic
import FluentSql.Proofs.Edits.Building
import FluentSql.Proofs.Edits.Calls
import FluentSql.Proofs.Regular
import FluentSql.Proofs.Balance
import FluentSql.Proofs.Balancing
import FluentSql.Proofs.Uniting
import FluentSql.Proofs.Unions.Meaning
import FluentSql.Proofs.Inserting
import FluentSql.Proofs.Parts
import FluentSql.Proofs.Explaining.Selecting
import FluentSql.Proofs.Supporting
import FluentSql.Proofs.Accounting.Basic
import FluentSql.Proofs.Accounting.Statements
import FluentSql.Proofs.Accounting.Building
import FluentSql.Proofs.Accounting.Calls
import FluentSql.Proofs.Accounting.Methods
import FluentSql.Proofs.Accounting.Scripts
import FluentSql.Proofs.Logging
import FluentSql.Proofs.Rejecting.Predicates
import FluentSql.Proofs.Rejecting.SubQueries
import FluentSql.Proofs.Rejecting.Documents
import FluentSql.Proofs.Sourcing
import FluentSql.Proofs.Limiting
import FluentSql.Proofs.Operators.Columns
import FluentSql.Proofs.Operators.Refusing
import FluentSql.Proofs.Operators.Membership
import FluentSql.Proofs.Owing.Basic
import FluentSql.Proofs.Owing.Comparing
import FluentSql.Proofs.Owing.Compiling
import FluentSql.Proofs.Owing.Documents
import FluentSql.Proofs.Naming.Mentions
import FluentSql.Proofs.Naming.Paths
import FluentSql.Proofs.Verbatim.Calls
import FluentSql.Proofs.Fetching.Named
import FluentSql.Proofs.Selected
import FluentSql.Proofs.Unions.Aggregating
import FluentSql.Proofs.Inserting.Rows
import FluentSql.Proofs.Operators.Corresponding
import FluentSql.Proofs.Numerals
import FluentSql.Proofs.Urls
import FluentSql.Proofs.Rejecting.Integers
import FluentSql.Proofs.Sharing
import FluentSql.Proofs.Joining
import FluentSql.Proofs.Entries
import FluentSql.Proofs.Probing
import FluentSql.Proofs.Naming.Segments
import FluentSql.Proofs.Equality
