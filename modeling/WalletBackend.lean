import WalletBackend.Blockfrost.UtxoReads
import WalletBackend.Blockfrost.TxHistory
import WalletBackend.Koios.ConsistencyPasses
import WalletBackend.Koios.AccountHistory
import WalletBackend.Koios.AddressHistory
import WalletBackend.Providers.TxAgreement
import WalletBackend.Cache.Barrier
import WalletBackend.Cache.Coalescing
import WalletBackend.Cache.Frame
import WalletBackend.Cached.TipOrder
import WalletBackend.Cached.BatchFills
import WalletBackend.Cached.Isolation
import WalletBackend.Koios.BodyLimit
import WalletBackend.Http.Spelling
import WalletBackend.Blockfrost.PoolFreshness
import WalletBackend.Blockfrost.PoolRanking
import WalletBackend.Library.Requests
import WalletBackend.Blockfrost.AccountWalks
import WalletBackend.Koios.RegisteredScans
import WalletBackend.Providers.RateLimits
import WalletBackend.Providers.RequestBudget
import WalletBackend.Domain.ByronCorruption
import WalletBackend.Cache.Staleness
import WalletBackend.Koios.Packing
import WalletBackend.Koios.BoundedWalk
import WalletBackend.Koios.CredentialProbes
import WalletBackend.Blockfrost.ConcurrencyBounds
import WalletBackend.Blockfrost.CollateralWalks
import WalletBackend.Blockfrost.UnitSpellings
import WalletBackend.Koios.DrepKinds
import WalletBackend.Koios.PoolTiles
import WalletBackend.Koios.Cip25Keys
import WalletBackend.Koios.HexCase
import WalletBackend.Prices.Isolation
import WalletBackend.Prices.BatchAgreement
import WalletBackend.Prices.DecimalExpansion
import WalletBackend.Http.PointerAddresses
import WalletBackend.Http.MessageScrubbing
import WalletBackend.Config.TrustedBlocks
import WalletBackend.RemoteConfig.Availability
import WalletBackend.Blockfrost.GovernanceLists
import WalletBackend.Blockfrost.DrepLookups
import WalletBackend.Koios.ProposalTallies
import WalletBackend.Providers.TxLifecycle
import WalletBackend.Http.TxReferences
import WalletBackend.Cached.ProcessCache
import WalletBackend.Providers.TokenReads
import WalletBackend.Http.MediaRoutes
import WalletBackend.Providers.LedgerHistory
import WalletBackend.Providers.UtxoAgreement
import WalletBackend.Blockfrost.StaticPages
import WalletBackend.Providers.LedgerPools
import WalletBackend.Providers.PoolAgreement
