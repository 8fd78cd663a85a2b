import QueryCriteria.AssociationPath
import QueryCriteria.Binary64.Basic
import QueryCriteria.Binary64.Extended
import QueryCriteria.Binary64.Layout
import QueryCriteria.Binary64.Rounding
import QueryCriteria.Binary64.Shortest
import QueryCriteria.Column.Date
import QueryCriteria.Column.DateTime
import QueryCriteria.Column.FixedPoint
import QueryCriteria.Column.Kind
import QueryCriteria.Column.Time
import QueryCriteria.Column.Uuid
import QueryCriteria.Column.Value
import QueryCriteria.Criterion
import QueryCriteria.Diagnostic
import QueryCriteria.Documents.Criterion
import QueryCriteria.Documents.Options
import QueryCriteria.Documents.Path
import QueryCriteria.Documents.Problem
import QueryCriteria.Documents.Target
import QueryCriteria.Documents.TransferObject
import QueryCriteria.Error
import QueryCriteria.FilterObject
import QueryCriteria.JoinKind
import QueryCriteria.JoinTree
import QueryCriteria.Json.Decoding
import QueryCriteria.Json.Document
import QueryCriteria.Json.Flattened
import QueryCriteria.Json.NumberReading
import QueryCriteria.Json.Printer
import QueryCriteria.Json.Reader
import QueryCriteria.Json.Record
import QueryCriteria.Json.Value
import QueryCriteria.Keyed
import QueryCriteria.Limits
import QueryCriteria.Plan
import QueryCriteria.Problem
import QueryCriteria.PropertyPath
import QueryCriteria.Provider
import QueryCriteria.ReadableProvider
import QueryCriteria.Segment
import QueryCriteria.Sql.Application
import QueryCriteria.Sql.Fragment
import QueryCriteria.Sql.LikePattern
import QueryCriteria.Sql.Operator
import QueryCriteria.Sql.Predicate
import QueryCriteria.Sql.Relation
import QueryCriteria.Sql.Select
import QueryCriteria.Text.Blank
import QueryCriteria.Text.CaseTables
import QueryCriteria.Text.CodePoints
import QueryCriteria.Text.Dotted
import QueryCriteria.Text.Hexadecimal
import QueryCriteria.Text.LowerCase
import QueryCriteria.Text.Numeral
import QueryCriteria.Text.Printable
import QueryCriteria.Text.Quoted
import QueryCriteria.Text.Scan
import QueryCriteria.TransferObject
import QueryCriteria.Proofs.TableAlias
import QueryCriteria.Proofs.JoinTree.WellFormed
import QueryCriteria.Proofs.JoinTree.Registration
import QueryCriteria.Proofs.JoinTree.Conflicts
import QueryCriteria.Proofs.JoinTree.Sequences
import QueryCriteria.Proofs.JoinTree.Chains
import QueryCriteria.Proofs.TransferObject
import QueryCriteria.Proofs.Keyed
import QueryCriteria.Proofs.Json.Document
import QueryCriteria.Proofs.Json.Record
import QueryCriteria.Proofs.Json.Flattened
import QueryCriteria.Proofs.Json.Decoding
import QueryCriteria.Proofs.Operations
import QueryCriteria.Proofs.Limits
import QueryCriteria.Proofs.Compilation
import QueryCriteria.Proofs.CompiledPlan
import QueryCriteria.Proofs.Except
import QueryCriteria.Proofs.Sql.Application
import QueryCriteria.Proofs.Sql.Outline
import QueryCriteria.Proofs.Sql.Operator
import QueryCriteria.Proofs.Sql.LikePattern
import QueryCriteria.Proofs.Sql.Scope
import QueryCriteria.Proofs.Sql.ValueIndependence
import QueryCriteria.Proofs.Documents.Target
import QueryCriteria.Proofs.Documents.Criterion
import QueryCriteria.Proofs.Documents.TransferObject
import QueryCriteria.Proofs.Documents.Formats
import QueryCriteria.Proofs.Documents.RoundTrip
import QueryCriteria.Proofs.Documents.KnownFields
import QueryCriteria.Proofs.Sql.Effect
import QueryCriteria.Proofs.JoinTree.Agreement
import QueryCriteria.Proofs.EntryOrder
import QueryCriteria.Proofs.AppendedEntries
import QueryCriteria.Proofs.Documents.Answers
import QueryCriteria.Proofs.PlanSize
import QueryCriteria.Proofs.DottedPaths
import QueryCriteria.Proofs.Json.Replacement
import QueryCriteria.Proofs.Documents.TargetForms
import QueryCriteria.Proofs.Sql.Tokens
import QueryCriteria.Proofs.Sql.Grammar
import QueryCriteria.Proofs.Sql.ClauseForms
import QueryCriteria.Proofs.Sql.Conformance
import QueryCriteria.Proofs.Text.Numeral
import QueryCriteria.Proofs.FilterObject
import QueryCriteria.Proofs.Sql.BlankValues
import QueryCriteria.Proofs.Binary64.Layout
import QueryCriteria.Proofs.Sql.RangesAndLists
import QueryCriteria.Proofs.Column.FixedPoint
import QueryCriteria.Proofs.Column.NumberText
import QueryCriteria.Proofs.Binary64.Overflow
import QueryCriteria.Proofs.Binary64.Extended
import QueryCriteria.Proofs.Sql.BoundValues
import QueryCriteria.Proofs.Text.LowerCase
import QueryCriteria.Proofs.Sql.LetterCase
import QueryCriteria.Proofs.Json.Text
import QueryCriteria.Proofs.Sql.TableNames
import QueryCriteria.Proofs.Documents.SortRoundTrip
import QueryCriteria.Proofs.RaisedLimits
import QueryCriteria.Proofs.Sql.Unconstrained
import QueryCriteria.Proofs.Json.Acceptance
import QueryCriteria.Proofs.Documents.RepeatedFields
import QueryCriteria.Proofs.Documents.ProblemRoundTrip
import QueryCriteria.Proofs.JoinTree.DottedNames
import QueryCriteria.Proofs.Sql.Relations
import QueryCriteria.Proofs.Json.NumberLiteral
import QueryCriteria.Proofs.Json.Rereading
import QueryCriteria.Proofs.Documents.TextRoundTrip
