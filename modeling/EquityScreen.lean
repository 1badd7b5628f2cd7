import EquityScreen.Main
import EquityScreen.Proofs.RouteAgreement
import EquityScreen.Proofs.SortAgreement
import EquityScreen.Proofs.MarketRestriction
import EquityScreen.Proofs.Respelling
import EquityScreen.Proofs.ScreenErrors
import EquityScreen.Proofs.MissingLiterals
import EquityScreen.Proofs.Causality
import EquityScreen.Proofs.Isolation
import EquityScreen.Proofs.ShownValues
import EquityScreen.Proofs.TypeSoundness
import EquityScreen.Proofs.WireRoundTrip
import EquityScreen.Proofs.Overlay
import EquityScreen.Proofs.Paging
import EquityScreen.Proofs.EarlyRefusal
import EquityScreen.Proofs.Accounting
import EquityScreen.Proofs.StatementText
import EquityScreen.Proofs.RowOrder
import EquityScreen.Proofs.IssuePlaces
import EquityScreen.Proofs.Normalization
import EquityScreen.Proofs.IndicatorCoverage
import EquityScreen.Proofs.CrossingOperands
import EquityScreen.Proofs.ComputedWhole
import EquityScreen.Proofs.IndicatorIndependence
import EquityScreen.Proofs.StochasticLines
import EquityScreen.Proofs.RelativeStrength
import EquityScreen.Proofs.BandWindows
import EquityScreen.Proofs.LatestMeans
import EquityScreen.Proofs.StochasticRange
import EquityScreen.Proofs.BarLoading
import EquityScreen.Proofs.AtomicImport
import EquityScreen.Proofs.QuoteFigures
import EquityScreen.Proofs.ListOperators
import EquityScreen.Proofs.FilterDocument
import EquityScreen.Proofs.FirstDocument
import EquityScreen.Proofs.SearchPatterns
import EquityScreen.Proofs.FadingMeans
import EquityScreen.Proofs.FieldNames
