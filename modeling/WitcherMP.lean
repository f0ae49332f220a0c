import WitcherMP.Lib.OrdMap
import WitcherMP.Lib.Run
import WitcherMP.Lib.Word32
import WitcherMP.Lib.Exchange
import WitcherMP.Lib.Bag
import WitcherMP.Lib.Bytes
import WitcherMP.Lib.Words
import WitcherMP.Lib.Sorting
import WitcherMP.Lib.Prerequisites
import WitcherMP.Lib.Replicas
import WitcherMP.Lib.Memo
import WitcherMP.Lib.Traced
import WitcherMP.Lib.Pointwise
import WitcherMP.Lib.Interference
import WitcherMP.Lib.Party
import WitcherMP.Lib.Numerals
import WitcherMP.Lib.Readers
import WitcherMP.Lib.Fates
import WitcherMP.Lib.WeakOrders
import WitcherMP.Lib.Quotas
import WitcherMP.Lib.Frames
import WitcherMP.Lib.Layouts
import WitcherMP.Lib.FirstMatch
import WitcherMP.Lib.Books
import WitcherMP.Lib.Tallies
import WitcherMP.Lib.Weighted
import WitcherMP.Lib.Firsts
import WitcherMP.Lib.Heaps
import WitcherMP.Lib.Neighbours
import WitcherMP.Lib.Scans
import WitcherMP.Lib.Shifts
import WitcherMP.Lib.Lines
import WitcherMP.Lib.Remainders
import WitcherMP.Economy.Defs
import WitcherMP.Economy.Steps
import WitcherMP.Economy.Gold
import WitcherMP.Economy.Atomic
import WitcherMP.Economy.Passing
import WitcherMP.Economy.Trade
import WitcherMP.Economy.System
import WitcherMP.Economy.Counts
import WitcherMP.Economy.Exact
import WitcherMP.Economy.Filing
import WitcherMP.Economy.Worth
import WitcherMP.Economy.Profit
import WitcherMP.Economy.Weights
import WitcherMP.Economy.Quotes
import WitcherMP.Inventory.Defs
import WitcherMP.Inventory.Stock
import WitcherMP.Inventory.Database
import WitcherMP.Inventory.Weight
import WitcherMP.Inventory.Mirror
import WitcherMP.Inventory.Atomic
import WitcherMP.Inventory.Worn
import WitcherMP.Inventory.Fronts
import WitcherMP.Inventory.Buffs
import WitcherMP.Messages.Queue
import WitcherMP.Messages.Ledger
import WitcherMP.Messages.Traffic
import WitcherMP.Messages.Order
import WitcherMP.Messages.Selection
import WitcherMP.Messages.Turns
import WitcherMP.Messages.Limits
import WitcherMP.Compression.Defs
import WitcherMP.Compression.Codecs
import WitcherMP.Compression.Shrinks
import WitcherMP.Compression.RoundTrip
import WitcherMP.Compression.Lengths
import WitcherMP.Compression.Strays
import WitcherMP.Compression.Escapes
import WitcherMP.Compression.Cuts
import WitcherMP.Compression.Deltas
import WitcherMP.Compression.Batches
import WitcherMP.Compression.Accesses
import WitcherMP.Optimizers.Defs
import WitcherMP.Optimizers.Messages
import WitcherMP.Optimizers.Sniffing
import WitcherMP.Optimizers.Accesses
import WitcherMP.Batching.Defs
import WitcherMP.Batching.Ledger
import WitcherMP.Batching.Room
import WitcherMP.Batching.Bounds
import WitcherMP.Batching.Draining
import WitcherMP.Batching.Lossless
import WitcherMP.Protocol.Defs
import WitcherMP.Protocol.Wire
import WitcherMP.Protocol.Checksums
import WitcherMP.Protocol.Framing
import WitcherMP.Protocol.Compressed
import WitcherMP.Protocol.Records
import WitcherMP.Protocol.Fragments
import WitcherMP.Protocol.Pieces
import WitcherMP.Protocol.Pending
import WitcherMP.Protocol.Tracking
import WitcherMP.Protocol.Outbound
import WitcherMP.Protocol.Arrivals
import WitcherMP.Batching.Processor
import WitcherMP.Batching.Groups
import WitcherMP.Optimizers.Batches
import WitcherMP.Monsters.Defs
import WitcherMP.Monsters.Steady
import WitcherMP.Monsters.Lives
import WitcherMP.Monsters.Deaths
import WitcherMP.Monsters.Exchange
import WitcherMP.Monsters.Packs
import WitcherMP.Monsters.Threats
import WitcherMP.Networking.Defs
import WitcherMP.Networking.Stream
import WitcherMP.Networking.Handlers
import WitcherMP.Networking.Server
import WitcherMP.Networking.Discovery
import WitcherMP.Quests.Defs
import WitcherMP.Quests.Groups
import WitcherMP.Quests.Progress
import WitcherMP.Quests.Rosters
import WitcherMP.Quests.Parties
import WitcherMP.Quests.Replication
import WitcherMP.Quests.Events
import WitcherMP.Quests.Objectives
import WitcherMP.Progression.Defs
import WitcherMP.Progression.Skills
import WitcherMP.Progression.Points
import WitcherMP.Progression.Levels
import WitcherMP.Progression.Calls
import WitcherMP.Progression.Reach
import WitcherMP.Progression.Sight
import WitcherMP.Progression.Pools
import WitcherMP.Story.Defs
import WitcherMP.Story.Sessions
import WitcherMP.Story.Roles
import WitcherMP.Story.Quests
import WitcherMP.Story.Cutscenes
import WitcherMP.Story.Decisions
import WitcherMP.Story.Counts
import WitcherMP.Exploration.Defs
import WitcherMP.Exploration.Sessions
import WitcherMP.Exploration.Travel
import WitcherMP.Exploration.Positions
import WitcherMP.Exploration.Contracts
import WitcherMP.Exploration.Counts
import WitcherMP.GameModes.Defs
import WitcherMP.GameModes.Quests
import WitcherMP.GameModes.Switches
import WitcherMP.GameModes.Rewards
import WitcherMP.GameModes.Filters
import WitcherMP.Saves.Defs
import WitcherMP.Saves.Files
import WitcherMP.Saves.Latest
import WitcherMP.Saves.Backups
import WitcherMP.Saves.Restarts
import WitcherMP.Saves.Contents
import WitcherMP.Combat.Defs
import WitcherMP.Combat.Ledger
import WitcherMP.Combat.Caps
import WitcherMP.Combat.Inputs
import WitcherMP.Assets.Defs
import WitcherMP.Assets.Bundles
import WitcherMP.Assets.Integrity
import WitcherMP.Assets.Bursts
import WitcherMP.Bridges.Parameters
import WitcherMP.Movement.Defs
import WitcherMP.Movement.Ticks
import WitcherMP.Movement.Corrections
import WitcherMP.Movement.Snapshots
import WitcherMP.Config.Defs
import WitcherMP.Config.RoundTrip
import WitcherMP.Lib.Loops
import WitcherMP.Core.Wire
import WitcherMP.Core.Defs
import WitcherMP.Core.Drops
import WitcherMP.Core.Talk
import WitcherMP.Core.Handlers
import WitcherMP.Core.Views
import WitcherMP.Core.Moves
import WitcherMP.Core.Joins
import WitcherMP.Core.Agreement
import WitcherMP.Core.Crashes
import WitcherMP.Core.Creatures
import WitcherMP.Core.Wounds
import WitcherMP.Core.Chats
import WitcherMP.Lib.Latest
import WitcherMP.Lib.Journals
import WitcherMP.Economy.Ledger
import WitcherMP.Movement.Histories
import WitcherMP.Movement.Shown
import WitcherMP.Networking.Searches
import WitcherMP.Networking.Connects
import WitcherMP.Lib.Spacing
import WitcherMP.Lib.Sweeps
import WitcherMP.Signs.Casts
import WitcherMP.Alchemy.Defs
import WitcherMP.Alchemy.Crafts
import WitcherMP.Lib.Registries
import WitcherMP.Core.Resources
import WitcherMP.Fights.Attacks
