import NeutronTge.CosmWasm.Outcome
import NeutronTge.CosmWasm.Dispatch
import NeutronTge.CosmWasm.Uint
import NeutronTge.CosmWasm.Storage
import NeutronTge.CosmWasm.Paging
import NeutronTge.CosmWasm.Pacing
import NeutronTge.CosmWasm.Run
import NeutronTge.CosmWasm.Message
import NeutronTge.CosmWasm.Trace
import NeutronTge.CosmWasm.Counter
import NeutronTge.CosmWasm.Isolation
import NeutronTge.Shares.RewardPool
import NeutronTge.Shares.Tally
import NeutronTge.Shares.Reports
import NeutronTge.Astroport.Asset
import NeutronTge.Astroport.Ownership
import NeutronTge.Vesting.Base
import NeutronTge.Vesting.Queries
import NeutronTge.Vesting.Ledger
import NeutronTge.Vesting.Pcl
import NeutronTge.Vesting.Schedule
import NeutronTge.Vesting.Accounts
import NeutronTge.Vesting.History
import NeutronTge.Vesting.Chain
import NeutronTge.Vesting.Consistency
import NeutronTge.Vesting.Lp
import NeutronTge.Vesting.Migration
import NeutronTge.Vesting.PclBooks
import NeutronTge.Vesting.Entitlement
import NeutronTge.Vesting.Authority
import NeutronTge.Vesting.Isolation
import NeutronTge.Vesting.Availability
import NeutronTge.Credits.Contract
import NeutronTge.Credits.Chain
import NeutronTge.Credits.Backing
import NeutronTge.Astroport.RestrictedVector
import NeutronTge.Astroport.RewardIndex
import NeutronTge.Lockdrop.Types
import NeutronTge.Lockdrop.Stored
import NeutronTge.Lockdrop.Rewards
import NeutronTge.Lockdrop.Handlers
import NeutronTge.Lockdrop.Callbacks
import NeutronTge.Lockdrop.Chain
import NeutronTge.Lockdrop.Effects
import NeutronTge.Lockdrop.Transactions
import NeutronTge.Lockdrop.Ledger
import NeutronTge.Lockdrop.Consistency
import NeutronTge.Lockdrop.Incentives
import NeutronTge.Lockdrop.Withdrawal
import NeutronTge.Lockdrop.ProxyRewards
import NeutronTge.Lockdrop.Exits
import NeutronTge.Lockdrop.StakedPool
import NeutronTge.Lockdrop.FairRewards
import NeutronTge.Lockdrop.Authority
import NeutronTge.Shares.Payout
import NeutronTge.Shares.Alike
import NeutronTge.Shares.Departures
import NeutronTge.Lockdrop.StakeFlags
import NeutronTge.Lockdrop.Division
import NeutronTge.Lockdrop.RewardOrder
import NeutronTge.Lockdrop.Queries
import NeutronTge.Lockdrop.Projection
import NeutronTge.Lockdrop.OneTimeReward
import NeutronTge.Lockdrop.Limits
import NeutronTge.Lockdrop.Binding
import NeutronTge.LockdropPcl.Types
import NeutronTge.LockdropPcl.Contract
import NeutronTge.LockdropPcl.Chain
import NeutronTge.LockdropPcl.Effects
import NeutronTge.LockdropPcl.Transactions
import NeutronTge.LockdropPcl.Rewards
import NeutronTge.LockdropPcl.Ledger
import NeutronTge.LockdropPcl.Solvency
import NeutronTge.LockdropPcl.Coverage
import NeutronTge.LockdropPcl.Exits
import NeutronTge.LockdropPcl.Records
import NeutronTge.LockdropPcl.Backing
import NeutronTge.LockdropPcl.Queries
import NeutronTge.LockdropPcl.Projection
import NeutronTge.LockdropPcl.Authority
import NeutronTge.Composed.Lockdrops
import NeutronTge.Composed.RewardOnce
import NeutronTge.Composed.Unlocking
import NeutronTge.Composed.EarlyExit
import NeutronTge.Composed.PclLedger
import NeutronTge.Composed.PclStaking
import NeutronTge.Auction.Types
import NeutronTge.Auction.Contract
import NeutronTge.Auction.Chain
import NeutronTge.Auction.Effects
import NeutronTge.Auction.Transactions
import NeutronTge.Shares.Schedule
import NeutronTge.Shares.Percent
import NeutronTge.Auction.Deposits
import NeutronTge.Auction.Books
import NeutronTge.Auction.PoolSize
import NeutronTge.Auction.Opening
import NeutronTge.Auction.Payouts
import NeutronTge.Auction.Queries
import NeutronTge.Auction.Remainder
import NeutronTge.Auction.Handover
import NeutronTge.Composed.Airdrop
import NeutronTge.Composed.LockedLp
import NeutronTge.Composed.VestedLp
import NeutronTge.Composed.FreshRates
import NeutronTge.Composed.Positions
import NeutronTge.Composed.RewardClaim
import NeutronTge.Composed.WithdrawalPercent
import NeutronTge.PriceFeed.Contract
import NeutronTge.PriceFeed.Packets
import NeutronTge.PriceFeed.Chain
import NeutronTge.PriceFeed.Authenticity
import NeutronTge.PriceFeed.Matching
import NeutronTge.PriceFeed.Pacing
import NeutronTge.MerkleAirdrop.Contract
import NeutronTge.MerkleAirdrop.Chain
import NeutronTge.MerkleAirdrop.Codec
import NeutronTge.MerkleAirdrop.Recovery
import NeutronTge.MerkleAirdrop.Claims
import NeutronTge.MerkleAirdrop.Helper
import NeutronTge.Oracle.Contract
import NeutronTge.Oracle.Averages
import NeutronTge.Oracle.History
import NeutronTge.UsdcConverter.Contract
import NeutronTge.UsdcConverter.Chain
import NeutronTge.UsdcConverter.Conversions
import NeutronTge.Merkle.Tree
