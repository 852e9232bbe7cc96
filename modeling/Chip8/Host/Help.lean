/-! # The help text

What the program prints when asked for help, and the part of it that it prints when it refuses a
command line, for a terminal of eighty columns. -/

namespace Chip8.Help

/-- The name of the program. -/
def program : String := "chip8vm"

/-- The lines that sum the arguments up. -/
def usageLines : List String := [
  "usage: chip8vm [-h] [-s SCALE] [-d OP_DELAY] [-t TICKS] [--legacy-shift]",
  "               [--no-chip48-jump] [-v]",
  "               rom"]

/-- The lines of the help text. -/
def lines : List String := usageLines ++ [
  "",
  "Starts a simple Chip 8 emulator",
  "",
  "positional arguments:",
  "  rom               the ROM file to load on startup",
  "",
  "options:",
  "  -h, --help        show this help message and exit",
  "  -s SCALE          the scale factor to apply to the display (default is 10)",
  "  -d OP_DELAY       the number of milliseconds to wait between batches of",
  "                    instructions (default is 1)",
  "  -t TICKS          the number of instructions to execute per batch (default",
  "                    is 10)",
  "  --legacy-shift    shift Vx in place for 8xy6 and 8xyE",
  "  --no-chip48-jump  always use V0 for the Bnnn jump offset",
  "  -v                log every executed instruction"]

/-- Lines as one text, every line with its line break. -/
def joined (lines : List String) : String := String.join (lines.map (· ++ "\n"))

/-- The help text. -/
def text : String := joined lines

/-- What is shown in front of the reason for which a command line is refused. -/
def usage : String := joined usageLines

end Chip8.Help
