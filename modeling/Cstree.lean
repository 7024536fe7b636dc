import Cstree.Green.Element
import Cstree.Green.Cache
import Cstree.Green.CacheTheorems
import Cstree.Green.CacheLog
import Cstree.Green.Builder
import Cstree.Green.Frames
import Cstree.Green.Refinement
import Cstree.Green.Safety
import Cstree.Green.DocLen
import Cstree.Green.Checkpoint
import Cstree.Green.SyntaxTree
import Cstree.Green.View
import Cstree.Green.Events
import Cstree.Green.Laws
import Cstree.Green.World
import Cstree.Green.Threads
import Cstree.Green.Sharing
import Cstree.Green.Dedup
import Cstree.Green.Spelling
