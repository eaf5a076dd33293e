import Grzetris.Config.Bindings
import Grzetris.Config.RoundTrip
import Grzetris.Config.Unrecognised
import Grzetris.Engine.Blocks
import Grzetris.Engine.Clearing
import Grzetris.Engine.Collision
import Grzetris.Engine.Fairness
import Grzetris.Engine.Frames
import Grzetris.Engine.HardDrop
import Grzetris.Engine.Keeps
import Grzetris.Foundation.Executions
import Grzetris.Foundation.Ledger
import Grzetris.Foundation.Well
import Grzetris.Foundation.Windows
import Grzetris.Game.Batching
import Grzetris.Game.Blocks
import Grzetris.Game.Cleared
import Grzetris.Game.GameOver
import Grzetris.Game.HardDrop
import Grzetris.Game.Held
import Grzetris.Game.Keeps
import Grzetris.Game.LockDelay
import Grzetris.Game.Locked
import Grzetris.Game.Loop
import Grzetris.Game.Pace
import Grzetris.Game.Quit
import Grzetris.Game.Representation
import Grzetris.Game.Safety
import Grzetris.Game.Sessions
import Grzetris.Game.Steps
import Grzetris.Game.Timing
import Grzetris.Game.Unattended
import Grzetris.Program.Display
import Grzetris.Program.Ending
import Grzetris.Program.Games
import Grzetris.Program.Keys
import Grzetris.Program.Machine
import Grzetris.Program.Proceeds
import Grzetris.Program.Processes
import Grzetris.Program.Returns
import Grzetris.Program.Selections
import Grzetris.Tetris.Refinement
import Grzetris.Tetris.Rules
import Grzetris.Tetris.Runs
import Grzetris.Tetris.Survival
import Grzetris.Turns
import Grzetris.Ui.Display
import Grzetris.Ui.Keyboard
import Grzetris.Ui.Navigation
import Grzetris.Ui.Screen
import Grzetris.Ui.Texts
