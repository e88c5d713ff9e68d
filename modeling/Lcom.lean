import Lcom.Lib.BitField
import Lcom.Lib.Bytes
import Lcom.Lib.Calendar
import Lcom.Lib.Chain
import Lcom.Lib.Cooldown
import Lcom.Lib.Fill
import Lcom.Lib.Interaction
import Lcom.Lib.Layers
import Lcom.Lib.Lines
import Lcom.Lib.Loop
import Lcom.Lib.Memory
import Lcom.Lib.Monitor
import Lcom.Lib.Refine
import Lcom.Lib.Run
import Lcom.Lib.Slot
import Lcom.Lib.StableTop
import Lcom.Lib.Table
import Lcom.Lib.Text
import Lcom.Drivers.Gpu
import Lcom.Drivers.I8042
import Lcom.Drivers.Kbc
import Lcom.Drivers.Keyboard
import Lcom.Drivers.Mouse
import Lcom.Drivers.Ports
import Lcom.Drivers.Rtc
import Lcom.Drivers.RtcRead
import Lcom.Drivers.System
import Lcom.Drivers.Timer
import Lcom.Ui.Element
import Lcom.Ui.Menu
import Lcom.Ui.Sprite
import Lcom.Game.Display
import Lcom.Game.Gamestate
import Lcom.Game.Proj
import Lcom.Input.Keyboard
import Lcom.Input.Mouse
import Lcom.Leaderboard.Leaderboard
import Lcom.Proof.Assets.Image
import Lcom.Proof.Assets.PlayerVis
import Lcom.Proof.DataStructs.LinkedList
import Lcom.Proof.Dialogues
import Lcom.Proof.Drivers.Blit
import Lcom.Proof.Drivers.Chip
import Lcom.Proof.Drivers.Dialogue
import Lcom.Proof.Drivers.Holdings
import Lcom.Proof.Drivers.Kbc
import Lcom.Proof.Drivers.KbcIh
import Lcom.Proof.Drivers.Line
import Lcom.Proof.Drivers.OutputBuffer
import Lcom.Proof.Drivers.ReadOutbuff
import Lcom.Proof.Drivers.Receive
import Lcom.Proof.Drivers.Snapshot
import Lcom.Proof.Drivers.System
import Lcom.Proof.Drivers.Timer
import Lcom.Proof.Drivers.WriteCommand
import Lcom.Proof.Game.Cursor
import Lcom.Proof.Game.Display
import Lcom.Proof.Game.Moves
import Lcom.Proof.Game.Scene
import Lcom.Proof.Game.Shutdown
import Lcom.Proof.Game.States
import Lcom.Proof.Grid.Load
import Lcom.Proof.Input.Clicks
import Lcom.Proof.Input.Forget
import Lcom.Proof.Input.Keyboard
import Lcom.Proof.Input.MousePackets
import Lcom.Proof.Input.Resync
import Lcom.Proof.Lab2.TimerTest
import Lcom.Proof.Lab3.KbdTest
import Lcom.Proof.Lab3.TimedScan
import Lcom.Proof.Lab4.PacketTest
import Lcom.Proof.Lab5.Controller
import Lcom.Proof.Lab5.Move
import Lcom.Proof.Lab5.Panel
import Lcom.Proof.Lab5.Pattern
import Lcom.Proof.Lab5.Rectangle
import Lcom.Proof.Lab5.Still
import Lcom.Proof.Leaderboard.Dates
import Lcom.Proof.Leaderboard.File
import Lcom.Proof.Leaderboard.Ranking
import Lcom.Proof.Leaderboard.Reload
import Lcom.Proof.Leaderboard.RoundTrip
import Lcom.Proof.Leaderboard.Sessions
import Lcom.Proof.Player.Visible
import Lcom.Proof.Programs
import Lcom.Proof.Screen.Contents
import Lcom.Proof.Screen.Window
import Lcom.Proof.Ui.Animation
import Lcom.Proof.Ui.Creation
import Lcom.Proof.Ui.Glyphs
import Lcom.Proof.Ui.HitTest
import Lcom.Proof.Ui.Overlap
import Lcom.Proof.Ui.Picture
import Lcom.Proof.Ui.Ranking
import Lcom.Proof.Ui.Rows
import Lcom.Proof.Ui.Times
import Lcom.Assets.AssetsManager
import Lcom.DataStructs.LinkedList
import Lcom.Grid.Grid
import Lcom.Lab2.TimerTest
import Lcom.Lab3.KbdTest
import Lcom.Lab3.TimedScan
import Lcom.Lab4.PacketTest
import Lcom.Lab5.Gpu
import Lcom.Lab5.Move
import Lcom.Lab5.Pattern
import Lcom.Lab5.Still
import Lcom.Player.Player
import Lcom.Screen.Screen
