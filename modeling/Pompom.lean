import Pompom.Lib.Double
import Pompom.Lib.Run
import Pompom.Lib.Loop
import Pompom.Lib.KeyedSet
import Pompom.Firestore.ViewSnapshot
import Pompom.Firestore.View
import Pompom.Firestore.QueryListener
import Pompom.Firestore.QuerySnapshot
import Pompom.Firestore.GetDocuments
import Pompom.Firestore.WatchStream
import Pompom.Firestore.WatchSteps
import Pompom.Firestore.WatchRuns
import Pompom.Firestore.RemoteEvent
import Pompom.Firestore.PlainTargets
import Pompom.Firestore.TargetContents
import Pompom.Firestore.DocumentUpdates
import Pompom.Firestore.TargetReports
import Pompom.Firestore.TargetRuns
import Pompom.Firestore.LocalStore
import Pompom.Firestore.Additions
import Pompom.Chat.MessageSnapshots
import Pompom.Lib.Overlay
import Pompom.Lib.OrderedChanges
import Pompom.Lib.Outstanding
import Pompom.Lib.Matching
import Pompom.Lib.Hexadecimal
import Pompom.Lib.Marked
import Pompom.Clothes.Cloth
import Pompom.Clothes.ClothesManager
import Pompom.Clothes.PickerViewModel
import Pompom.Clothes.PickerColor
import Pompom.Clothes.PickerWiring
import Pompom.Clothes.PickerRefinement
import Pompom.Clothes.OutfitSharing
import Pompom.Clothes.FailedLoad
import Pompom.Clothes.OwnRounds
import Pompom.Clothes.PartnerFigure
import Pompom.Clothes.Wardrobe
import Pompom.Clothes.WornColors
import Pompom.Clothes.HexColor
import Pompom.Clothes.Figure
import Pompom.Chat.MessageList
import Pompom.Chat.CommentInput
import Pompom.Chat.MessageIdentity
import Pompom.Chat.Bubbles
import Pompom.Main.TopAlert
import Pompom.Pairing.Users
import Pompom.Pairing.Client
import Pompom.Pairing.GetCode
import Pompom.Pairing.CodeIssuing
import Pompom.Pairing.Lookup
import Pompom.Pairing.PartnerClothes
import Pompom.Pairing.References
import Pompom.Pairing.Stranded
import Pompom.Pairing.Permanent
import Pompom.Pairing.Established
import Pompom.Pairing.OutstandingWrites
import Pompom.Pairing.Mutual
import Pompom.Pairing.Confluence
import Pompom.Pairing.LocalDocument
import Pompom.Pairing.LocalView
import Pompom.Pairing.ConnectCall
import Pompom.Pairing.Disconnect
