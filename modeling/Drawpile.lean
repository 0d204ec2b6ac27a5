import Drawpile.CTypes
import Drawpile.Protocol.Bytes
import Drawpile.Protocol.Meta
import Drawpile.Protocol.RoundTrip
import Drawpile.Core.Tile
import Drawpile.Client.HistoryLimit
import Drawpile.Canvas.Scene
import Drawpile.Canvas.PreviewPool
import Drawpile.Utils.QtText
import Drawpile.Utils.Palette
import Drawpile.Utils.QtString
import Drawpile.Canvas.Annotations
import Drawpile.Client.Tools
import Drawpile.Client.Save
import Drawpile.Utils.PaletteEdit
import Drawpile.Core.Layer
