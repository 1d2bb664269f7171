import PreparedSql.Exchange.Statement
import PreparedSql.Library.Scenario
import PreparedSql.Proofs.ArgumentContract
import PreparedSql.Proofs.ArtifactLayout
import PreparedSql.Proofs.CompiledParameters
import PreparedSql.Proofs.ExpressionRoundTrip
import PreparedSql.Proofs.FailedCompilation
import PreparedSql.Proofs.FrozenQuerySets
import PreparedSql.Proofs.LiteralExecution
import PreparedSql.Proofs.LiteralIndependence
import PreparedSql.Proofs.ManagerCalls
import PreparedSql.Proofs.MemoTransparency
import PreparedSql.Proofs.NullPadding
import PreparedSql.Proofs.SliceWindow
import PreparedSql.Proofs.StatementEntries
import PreparedSql.Proofs.StatementNames
import PreparedSql.Proofs.StreamProtocol
import PreparedSql.Session.Workspace
import PreparedSql.Wire.MySqlOptions
import PreparedSql.Wire.MySqlRow
import PreparedSql.Wire.PostgresStream
import PreparedSql.Proofs.NestedSlices
import PreparedSql.Proofs.SelectedRows
import PreparedSql.Proofs.ReversedRows
import PreparedSql.Proofs.SetAlgebra
import PreparedSql.Proofs.QuotedScanning
import PreparedSql.Proofs.SealedLiterals
import PreparedSql.Proofs.ArgumentPositions
import PreparedSql.Proofs.QuotedReading
import PreparedSql.Proofs.WrittenNumbers
import PreparedSql.Proofs.CalendarDays
import PreparedSql.Proofs.WrittenMoments
import PreparedSql.Proofs.TextCells
import PreparedSql.Proofs.AddressTexts
import PreparedSql.Proofs.CleaningOutcomes
import PreparedSql.Proofs.SoundCleaning
import PreparedSql.Proofs.AddressRoundTrip
import PreparedSql.Proofs.ExactNumbers
import PreparedSql.Proofs.IdempotentCleaning
import PreparedSql.Proofs.CommentScanning
import PreparedSql.Proofs.InlinedSigns
import PreparedSql.Proofs.OpenedComments
import PreparedSql.Proofs.FlavoredLexemes
import PreparedSql.Proofs.RangeReader
import PreparedSql.Proofs.RangeRoundTrip
import PreparedSql.Proofs.CaselessEquality
import PreparedSql.Proofs.SliceContract
import PreparedSql.Proofs.StoppingReads
import PreparedSql.Proofs.NativeRoundTrip
import PreparedSql.Proofs.DerivedReads
import PreparedSql.Proofs.CountedRows
import PreparedSql.Proofs.RefusedChanges
import PreparedSql.Proofs.ExecutedSlices
import PreparedSql.Proofs.ListMembership
import PreparedSql.Proofs.SoughtTexts
import PreparedSql.Proofs.UsableNames
import PreparedSql.Proofs.ArrayDemand
import PreparedSql.Proofs.ExactArguments
import PreparedSql.Proofs.BoundArrays
import PreparedSql.Proofs.StoredRows
import PreparedSql.Proofs.CommandLabels
import PreparedSql.Proofs.ShownTexts
