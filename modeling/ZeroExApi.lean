import ZeroExApi.Lib.Transition
import ZeroExApi.Lib.BigNumber
import ZeroExApi.Lib.JsArray
import ZeroExApi.Lib.JsMap
import ZeroExApi.Lib.Fallible
import ZeroExApi.Lib.BitFlags
import ZeroExApi.Lib.Apportion
import ZeroExApi.Lib.JsString
import ZeroExApi.Lib.Metered
import ZeroExApi.Lib.EvmInt
import ZeroExApi.Lib.InFlight
import ZeroExApi.Lib.Comparator
import ZeroExApi.Lib.Decimal
import ZeroExApi.Lib.CheckedArith
import ZeroExApi.Lib.Selection
import ZeroExApi.Lib.Sweep
import ZeroExApi.Lib.GreedyFill
import ZeroExApi.Lib.AbiWords
import ZeroExApi.Lib.Chunks
import ZeroExApi.Lib.Recorded
import ZeroExApi.Types
import ZeroExApi.PoolsCache
import ZeroExApi.OrderBook
import ZeroExApi.Websocket
import ZeroExApi.Orders
import ZeroExApi.Fills
import ZeroExApi.Path
import ZeroExApi.PathOptimizer
import ZeroExApi.QuoteSimulation
import ZeroExApi.QuoteInfo
import ZeroExApi.QuoteConsumerUtils
import ZeroExApi.RoutedPath
import ZeroExApi.SellQuote
import ZeroExApi.TransformErc20Rule
import ZeroExApi.SwapQuoteConsumer
import ZeroExApi.ExchangeProxyOverhead
import ZeroExApi.MultiplexBatch
import ZeroExApi.AffiliateFees
import ZeroExApi.SwapService
import ZeroExApi.NativeOrders
import ZeroExApi.FeeCalculator
import ZeroExApi.AttributedCallData
import ZeroExApi.ComparisonPrice
import ZeroExApi.TwoHopBounds
import ZeroExApi.FillRun
import ZeroExApi.WorstCase
import ZeroExApi.SourceBreakdown
import ZeroExApi.MultiQuoter
import ZeroExApi.TickBitmap
import ZeroExApi.PoolWalk
import ZeroExApi.MultiSwap
import ZeroExApi.ExactOutput
import ZeroExApi.StraightCurve
import ZeroExApi.UniswapV3MultiQuoter
import ZeroExApi.AlgebraTickTable
import ZeroExApi.ExactInput
import ZeroExApi.AlgebraMultiQuoter
import ZeroExApi.FillConservation
import ZeroExApi.RouteCoverage
import ZeroExApi.Lib.Interpolation
import ZeroExApi.SampledRates
import ZeroExApi.FeePenalties
import ZeroExApi.RoutablePaths
import ZeroExApi.TwoHopAccounting
import ZeroExApi.OrderPages
import ZeroExApi.FirmQuoteValidator
import ZeroExApi.EthValue
import ZeroExApi.KyberElasticMultiQuoter
import ZeroExApi.Lib.PiecedCurve
import ZeroExApi.ElasticTrack
import ZeroExApi.ElasticQuotes
import ZeroExApi.ElasticStraight
import ZeroExApi.ElasticPaths
import ZeroExApi.PathSize
import ZeroExApi.PathComparison
import ZeroExApi.FeeConversion
import ZeroExApi.GasFee
import ZeroExApi.SlippageModel
import ZeroExApi.SlippedOrders
import ZeroExApi.SourceFilters
import ZeroExApi.TransformFees
import ZeroExApi.SlippageModelManager
import ZeroExApi.SlippageModelFillAdjustor
import ZeroExApi.SlippageModelRefresh
import ZeroExApi.RfqBlockedAddressUtils
import ZeroExApi.GasPriceUtils
import ZeroExApi.ResultCache
import ZeroExApi.OrderComparison
import ZeroExApi.OrderPersistence
import ZeroExApi.SamplerBatch
import ZeroExApi.ApproximateBuys
import ZeroExApi.MakerPsmSampler
import ZeroExApi.UniswapV3Sampler
import ZeroExApi.TokenAdjacency
import ZeroExApi.SampleAmounts
import ZeroExApi.RfqFillAmounts
import ZeroExApi.TickSearch
import ZeroExApi.TickWalk
import ZeroExApi.TwoHopSampler
import ZeroExApi.UniswapV3PathAmounts
import ZeroExApi.BalanceChecker
import ZeroExApi.MakerBalanceCacheRunner
import ZeroExApi.RfqMakerBalances
import ZeroExApi.RfqWorkerLoop
import ZeroExApi.SamplerOperations
import ZeroExApi.MarketOperationUtils
import ZeroExApi.TwoPhaseRouting
import ZeroExApi.SwapQuoter
import ZeroExApi.QuoteBacking
import ZeroExApi.SourceRequests
import ZeroExApi.SwapServing
import ZeroExApi.SwapRequests
import ZeroExApi.MetaTransactions
