import FlutterMend.Text

/-!
# Sample widgets

Small source files that show what a run changes and what it leaves alone.
-/

namespace FlutterMend.SampleWidget

/-- A widget with both deprecated usages. -/
def fixable : String :=
  unlines [
    "import 'package:flutter/material.dart';",
    "",
    "class Swatch extends StatelessWidget \x7b",
    "  const Swatch(\x7bKey? key, required this.color\x7d) : super(key: key);",
    "",
    "  final Color color;",
    "",
    "  @override",
    "  Widget build(BuildContext context) \x7b",
    "    return Container(color: color.withOpacity(0.5));",
    "  \x7d",
    "\x7d"]

/-- The fixable widget after a run. -/
def fixed : String :=
  unlines [
    "import 'package:flutter/material.dart';",
    "",
    "class Swatch extends StatelessWidget \x7b",
    "  const Swatch(\x7bsuper.key, required this.color\x7d);",
    "",
    "  final Color color;",
    "",
    "  @override",
    "  Widget build(BuildContext context) \x7b",
    "    return Container(color: color.withValues(alpha: 0.5));",
    "  \x7d",
    "\x7d"]

/-- A widget that is left alone. -/
def clean : String :=
  unlines [
    "import 'package:flutter/material.dart';",
    "",
    "class Label extends StatelessWidget \x7b",
    "  const Label(\x7bsuper.key, required this.text\x7d);",
    "",
    "  final String text;",
    "",
    "  @override",
    "  Widget build(BuildContext context) \x7b",
    "    return Text(text, style: TextStyle(color: Colors.black.withValues(alpha: 0.8)));",
    "  \x7d",
    "\x7d"]

end FlutterMend.SampleWidget
