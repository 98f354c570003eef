import DCorePython.Lib.Loop
import DCorePython.Lib.PartialMap
import DCorePython.Lib.OrderedSet
import DCorePython.Lib.Registry
import DCorePython.Lib.Member
import DCorePython.Lib.Heap
import DCorePython.Lib.Located
import DCorePython.Lib.Machine
import DCorePython.Lib.Keywords
import DCorePython.Lib.Text
import DCorePython.Lib.Dotted
import DCorePython.Python
import DCorePython.Module
import DCorePython.Codecs
import DCorePython.Variants
import DCorePython.Objects
import DCorePython.Attributes
import DCorePython.Operation
import DCorePython.Collections
import DCorePython.Assignment
import DCorePython.Wrapping
import DCorePython.Assert
import DCorePython.Atomicity
import DCorePython.Chain
import DCorePython.Optional
import DCorePython.Ids
import DCorePython.ObjectId
import DCorePython.Canonical
import DCorePython.TokenData
import DCorePython.TokenRead
import DCorePython.TokenUpdate
import DCorePython.Wallet
import DCorePython.Lib.FloatGrid
import DCorePython.Numerals
import DCorePython.Amounts
import DCorePython.Asset
import DCorePython.Custom
import DCorePython.References
import DCorePython.BoundClasses
import DCorePython.AttributePaths
import DCorePython.Sessions
import DCorePython.Ownership
import DCorePython.Aliases
import DCorePython.WalletMethods
import DCorePython.WalletRuns
import DCorePython.WalletCalls
import DCorePython.WalletBroadcasts
import DCorePython.WalletSpellings
import DCorePython.Rebuilding
import DCorePython.Repacking
import DCorePython.Attempts
import DCorePython.Lookups
import DCorePython.Signing
import DCorePython.Balances
import DCorePython.Scripts
