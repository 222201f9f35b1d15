/-!
# The registry of languages

File extensions and whole file names with the language they belong to. Extensions and names that
several languages share are listed apart: they decide nothing.
-/

namespace Sift.Language

/-- Extensions that belong to one language, blank-separated. -/
def extensionRows : List (String × List String) := [
  ("1C Enterprise", [".bsl .os"]),
  ("2-Dimensional Array", [".2da"]),
  ("4D", [".4dm"]),
  ("ABAP", [".abap"]),
  ("ABAP CDS", [".asddls"]),
  ("ABNF", [".abnf"]),
  ("AGS Script", [".ash"]),
  ("AIDL", [".aidl"]),
  ("AMPL", [".ampl"]),
  ("ANTLR", [".g4"]),
  ("API Blueprint", [".apib"]),
  ("APL", [".apl .dyalog"]),
  ("ASL", [".asl .dsl"]),
  ("ASN.1", [".asn .asn1"]),
  ("ASP.NET", [".asax .ascx .ashx .asmx .aspx .axd"]),
  ("ATS", [".dats .hats .sats"]),
  ("Ada", [".ada .adb .ads"]),
  ("Adobe Font Metrics", [".afm"]),
  ("Agda", [".agda"]),
  ("Alloy", [".als"]),
  ("Altium Designer", [".outjob .pcbdoc .prjpcb .schdoc"]),
  ("AngelScript", [".angelscript"]),
  ("Antlers", [".antlers.html .antlers.php .antlers.xml"]),
  ("ApacheConf", [".apacheconf"]),
  ("Apollo Guidance Computer", [".agc"]),
  ("AppleScript", [".applescript .scpt"]),
  ("Arc", [".arc"]),
  ("AsciiDoc", [".adoc .asciidoc"]),
  ("AspectJ", [".aj"]),
  ("Assembly", [".a51 .nasm"]),
  ("Astro", [".astro"]),
  ("Augeas", [".aug"]),
  ("AutoHotkey", [".ahk .ahkl"]),
  ("AutoIt", [".au3"]),
  ("Avro IDL", [".avdl"]),
  ("Awk", [".auk .awk .gawk .mawk .nawk"]),
  ("BQN", [".bqn"]),
  ("Ballerina", [".bal"]),
  ("Batchfile", [".bat .cmd"]),
  ("Befunge", [".befunge"]),
  ("Berry", [".be"]),
  ("BibTeX", [".bib .bibtex"]),
  ("Bicep", [".bicep .bicepparam"]),
  ("Bison", [".bison"]),
  ("BitBake", [".bbappend .bbclass"]),
  ("Blade", [".blade .blade.php"]),
  ("BlitzBasic", [".decls"]),
  ("BlitzMax", [".bmx"]),
  ("Bluespec", [".bsv"]),
  ("Boo", [".boo"]),
  ("Boogie", [".bpl"]),
  ("Brightscript", [".brs"]),
  ("C", [".c .cats .idc"]),
  ("C#", [".cs.pp .csx .linq"]),
  ("C++", [".c++ .cc .cpp .cppm .cxx .h++ .hpp .hxx .inl .ino .ipp .ixx .tcc .tpp .txx"]),
  ("C-ObjDump", [".c-objdump"]),
  ("C2hs Haskell", [".chs"]),
  ("CAP CDS", [".cds"]),
  ("CIL", [".cil"]),
  ("CLIPS", [".clp"]),
  ("CMake", [".cmake .cmake.in"]),
  ("COBOL", [".cbl .ccp .cob .cobol .cpy"]),
  ("COLLADA", [".dae"]),
  ("CSON", [".cson"]),
  ("CSS", [".css"]),
  ("CSV", [".csv"]),
  ("Cabal Config", [".cabal"]),
  ("Caddyfile", [".caddyfile"]),
  ("Cadence", [".cdc"]),
  ("Cairo", [".cairo"]),
  ("CameLIGO", [".mligo"]),
  ("Cap'n Proto", [".capnp"]),
  ("CartoCSS", [".mss"]),
  ("Ceylon", [".ceylon"]),
  ("Chapel", [".chpl"]),
  ("Checksums", [
    ".crc32 .md2 .md4 .md5 .sha1 .sha2 .sha224 .sha256 .sha256sum .sha3 .sha384",
    ".sha512"]),
  ("ChucK", [".ck"]),
  ("Circom", [".circom"]),
  ("Cirru", [".cirru"]),
  ("Clarion", [".clw"]),
  ("Clarity", [".clar"]),
  ("Classic ASP", [".asp"]),
  ("Clean", [".dcl .icl"]),
  ("Click", [".click"]),
  ("Clojure", [".boot .cl2 .clj .cljc .cljs .cljs.hl .cljscm .cljx .hic"]),
  ("Closure Templates", [".soy"]),
  ("CoNLL-U", [".conll .conllu"]),
  ("CodeQL", [".ql .qll"]),
  ("CoffeeScript", ["._coffee .cjsx .coffee .iced"]),
  ("ColdFusion", [".cfm .cfml"]),
  ("ColdFusion CFC", [".cfc"]),
  ("Common Lisp", [".asd .ny .podsl .sexp"]),
  ("Common Workflow Language", [".cwl"]),
  ("Component Pascal", [".cps"]),
  ("Coq", [".coq"]),
  ("Cpp-ObjDump", [".c++-objdump .c++objdump .cpp-objdump .cppobjdump .cxx-objdump"]),
  ("Creole", [".creole"]),
  ("Crystal", [".cr"]),
  ("Csound", [".orc .udo"]),
  ("Csound Document", [".csd"]),
  ("Csound Score", [".sco"]),
  ("Cuda", [".cu .cuh"]),
  ("Curry", [".curry"]),
  ("Cycript", [".cy"]),
  ("Cypher", [".cyp .cypher"]),
  ("Cython", [".pxd .pxi .pyx"]),
  ("D", [".di"]),
  ("D-ObjDump", [".d-objdump"]),
  ("D2", [".d2"]),
  ("DIGITAL Command Language", [".com"]),
  ("DM", [".dm"]),
  ("DNS Zone", [".arpa .zone"]),
  ("Dafny", [".dfy"]),
  ("Darcs Patch", [".darcspatch .dpatch"]),
  ("Dart", [".dart"]),
  ("DataWeave", [".dwl"]),
  ("Dhall", [".dhall"]),
  ("Diff", [".diff .patch"]),
  ("Dockerfile", [".dockerfile"]),
  ("Dogescript", [".djs"]),
  ("Dotenv", [".env"]),
  ("Dylan", [".dyl .dylan .intr .lid"]),
  ("E-mail", [".eml .mbox"]),
  ("EBNF", [".ebnf"]),
  ("ECL", [".eclxml"]),
  ("EJS", [".ect .ejs .ejs.t .jst"]),
  ("EQ", [".eq"]),
  ("Easybuild", [".eb"]),
  ("Ecere Projects", [".epj"]),
  ("Edge", [".edge"]),
  ("EdgeQL", [".edgeql .esdl"]),
  ("EditorConfig", [".editorconfig"]),
  ("Edje Data Collection", [".edc"]),
  ("Elixir", [".exs"]),
  ("Elm", [".elm"]),
  ("Elvish", [".elv"]),
  ("Emacs Lisp", [".el .emacs .emacs.desktop"]),
  ("EmberScript", [".em .emberscript"]),
  ("Erlang", [".app .app.src .erl .escript .hrl .xrl .yrl"]),
  ("F#", [".fsi .fsx"]),
  ("F*", [".fst .fsti"]),
  ("FIGlet Font", [".flf"]),
  ("FIRRTL", [".fir"]),
  ("FLUX", [".flux"]),
  ("Factor", [".factor"]),
  ("Fancy", [".fancypack .fy"]),
  ("Fantom", [".fan"]),
  ("Fennel", [".fnl"]),
  ("Formatted", [".eam.fs"]),
  ("Forth", [".4th .forth .frt .fth"]),
  ("Fortran", [".f77 .fpp"]),
  ("Fortran Free Form", [".f03 .f08 .f90 .f95"]),
  ("FreeBasic", [".bi"]),
  ("Futhark", [".fut"]),
  ("G-code", [".cnc .gco .gcode"]),
  ("GAML", [".gaml"]),
  ("GAMS", [".gms"]),
  ("GAP", [".gap .gi"]),
  ("GDB", [".gdb .gdbinit"]),
  ("GEDCOM", [".ged"]),
  ("GLSL", [
    ".fp .frg .fsh .fshader .geo .geom .glsl .glslf .glslv .gshader .rchit .rmiss",
    ".tesc .tese .vert .vrx .vs .vsh .vshader"]),
  ("GN", [".gn .gni"]),
  ("GSC", [".csc .gsc .gsh"]),
  ("Gemini", [".gmi"]),
  ("Genero 4gl", [".4gl"]),
  ("Genero per", [".per"]),
  ("Genshi", [".kid"]),
  ("Gentoo Ebuild", [".ebuild"]),
  ("Gentoo Eclass", [".eclass"]),
  ("Gerber Image", [".cmp .gbl .gbo .gbp .gbr .gbs .gko .gpb .gpt .gtl .gto .gtp"]),
  ("Gettext Catalog", [".po .pot"]),
  ("Gherkin", [".feature .story"]),
  ("Git Config", [".gitconfig"]),
  ("Gleam", [".gleam"]),
  ("Glimmer JS", [".gjs"]),
  ("Glyph", [".glf"]),
  ("Glyph Bitmap Distribution Format", [".bdf"]),
  ("Gnuplot", [".gnu .gnuplot .gp .plot"]),
  ("Go", [".go"]),
  ("Godot Resource", [".gdnlib .gdns .tres .tscn"]),
  ("Golo", [".golo"]),
  ("Gosu", [".gsx .vark"]),
  ("Grace", [".grace"]),
  ("Gradle", [".gradle"]),
  ("Gradle Kotlin DSL", [".gradle.kts"]),
  ("Grammatical Framework", [".gf"]),
  ("GraphQL", [".gql .graphql .graphqls"]),
  ("Graphviz (DOT)", [".dot .gv"]),
  ("Groovy", [".groovy .grt .gtpl .gvy"]),
  ("Groovy Server Pages", [".gsp"]),
  ("HCL", [".hcl .nomad .tf .tfvars"]),
  ("HLSL", [".cginc .fxh .hlsl .hlsli"]),
  ("HOCON", [".hocon"]),
  ("HTML", [".hta .htm .html.hl .xht .xhtml"]),
  ("HTML+ECR", [".ecr"]),
  ("HTML+EEX", [".eex .html.heex .html.leex"]),
  ("HTML+ERB", [".erb .erb.deface .rhtml"]),
  ("HTML+PHP", [".phtml"]),
  ("HTML+Razor", [".cshtml .razor"]),
  ("HTTP", [".http"]),
  ("HXML", [".hxml"]),
  ("Hack", [".hack .hhi"]),
  ("Haml", [".haml .haml.deface"]),
  ("Handlebars", [".handlebars .hbs"]),
  ("Harbour", [".hb"]),
  ("Haskell", [".hs .hs-boot .hsc"]),
  ("Haxe", [".hx .hxsl"]),
  ("HiveQL", [".hql"]),
  ("HolyC", [".hc"]),
  ("Hy", [".hy"]),
  ("IDL", [".dlm"]),
  ("IGOR Pro", [".ipf"]),
  ("INI", [".cnf .dof .ini .lektorproject .prefs .url"]),
  ("IRC log", [".irclog .weechatlog"]),
  ("Idris", [".idr .lidr"]),
  ("Ignore List", [".gitignore"]),
  ("ImageJ Macro", [".ijm"]),
  ("Imba", [".imba"]),
  ("Inform 7", [".i7x .ni"]),
  ("Ink", [".ink"]),
  ("Inno Setup", [".isl .iss"]),
  ("Io", [".io"]),
  ("Ioke", [".ik"]),
  ("Isabelle", [".thy"]),
  ("J", [".ijs"]),
  ("JCL", [".jcl"]),
  ("JFlex", [".flex .jflex"]),
  ("JSON", [
    ".4dform .4dproject .avsc .geojson .gltf .har .json-tmlanguage .jsonl .mcmeta",
    ".sarif .tfstate .tfstate.backup .topojson .webapp .webmanifest .yyp"]),
  ("JSON with Comments", [
    ".code-snippets .code-workspace .jsonc .sublime-build .sublime-color-scheme",
    ".sublime-commands .sublime-completions .sublime-keymap .sublime-macro",
    ".sublime-menu .sublime-mousemap .sublime-project .sublime-settings",
    ".sublime-theme .sublime-workspace .sublime_metrics .sublime_session"]),
  ("JSON5", [".json5"]),
  ("JSONLD", [".jsonld"]),
  ("Janet", [".janet"]),
  ("Java", [".jav .java .jsh"]),
  ("Java Server Pages", [".jsp .tag"]),
  ("JavaScript", [
    "._js .bones .cjs .es6 .jake .javascript .js .jsb .jscad .jsfl .jslib .jsm .jspre",
    ".jss .jsx .mjs .njs .pac .sjs .ssjs .xsjs .xsjslib"]),
  ("JavaScript+ERB", [".js.erb"]),
  ("Jest Snapshot", [".snap"]),
  ("JetBrains MPS", [".mpl .mps .msd"]),
  ("Jinja", [".j2 .jinja .jinja2"]),
  ("Jison", [".jison"]),
  ("Jison Lex", [".jisonlex"]),
  ("Jolie", [".iol .ol"]),
  ("Jsonnet", [".jsonnet .libsonnet"]),
  ("Julia", [".jl"]),
  ("Jupyter Notebook", [".ipynb"]),
  ("Just", [".just"]),
  ("KRL", [".krl"]),
  ("Kaitai Struct", [".ksy"]),
  ("KakouneScript", [".kak"]),
  ("KiCad Layout", [".kicad_mod .kicad_pcb .kicad_wks"]),
  ("KiCad Schematic", [".kicad_sch"]),
  ("Kit", [".kit"]),
  ("Kotlin", [".kt .ktm .kts"]),
  ("Kusto", [".kql"]),
  ("LFE", [".lfe"]),
  ("LLVM", [".ll"]),
  ("LOLCODE", [".lol"]),
  ("LSL", [".lsl .lslp"]),
  ("LabVIEW", [".lvclass .lvlib .lvproj"]),
  ("Lark", [".lark"]),
  ("Lasso", [".las .lasso .lasso8 .lasso9"]),
  ("Latte", [".latte"]),
  ("Lean", [".hlean"]),
  ("Less", [".less"]),
  ("Lex", [".lex"]),
  ("LigoLANG", [".ligo"]),
  ("LilyPond", [".ily .ly"]),
  ("Linker Script", [".ld .lds"]),
  ("Liquid", [".liquid"]),
  ("Literate Agda", [".lagda"]),
  ("Literate CoffeeScript", [".coffee.md .litcoffee"]),
  ("Literate Haskell", [".lhs"]),
  ("LiveScript", ["._ls"]),
  ("Logos", [".xi .xm"]),
  ("Logtalk", [".lgt .logtalk"]),
  ("LookML", [".lkml .lookml"]),
  ("Lua", [".lua .nse .p8 .pd_lua .rbxs .rockspec .wlua"]),
  ("Luau", [".luau"]),
  ("M", [".mumps"]),
  ("MATLAB", [".matlab"]),
  ("MAXScript", [".mcr"]),
  ("MDX", [".mdx"]),
  ("MLIR", [".mlir"]),
  ("MQL4", [".mq4"]),
  ("MQL5", [".mq5"]),
  ("MTML", [".mtml"]),
  ("MUF", [".muf"]),
  ("Macaulay2", [".m2"]),
  ("Makefile", [".mak .make .makefile .mk .mkfile"]),
  ("Mako", [".mako .mao"]),
  ("Markdown", [".livemd .markdown .mdown .mdwn .mkd .mkdn .mkdown .ronn .workbook"]),
  ("Marko", [".marko"]),
  ("Mathematica", [".cdf .ma .mathematica .mt .nbp .wl .wlt"]),
  ("Max", [".maxhelp .maxpat .maxproj .mxt .pat"]),
  ("Mermaid", [".mermaid .mmd"]),
  ("Metal", [".metal"]),
  ("Microsoft Visual Studio Solution", [".sln"]),
  ("MiniD", [".minid"]),
  ("Mint", [".mint"]),
  ("Mirah", [".druby .duby .mirah"]),
  ("Modula-3", [".i3 .ig .m3 .mg"]),
  ("Module Management System", [".mmk .mms"]),
  ("Monkey", [".monkey .monkey2"]),
  ("MoonScript", [".moon"]),
  ("Motorola 68K Assembly", [".x68"]),
  ("Move", [".move"]),
  ("Muse", [".muse"]),
  ("Mustache", [".mustache"]),
  ("Myghty", [".myt"]),
  ("NASL", [".nasl"]),
  ("NEON", [".neon"]),
  ("NSIS", [".nsh .nsi"]),
  ("NWScript", [".nss"]),
  ("Nearley", [".ne .nearley"]),
  ("NetLinx", [".axi .axs"]),
  ("NetLinx+ERB", [".axi.erb .axs.erb"]),
  ("NetLogo", [".nlogo"]),
  ("Nextflow", [".nf"]),
  ("Nginx", [".nginx .nginxconf"]),
  ("Nim", [".nim .nim.cfg .nimble .nimrod .nims"]),
  ("Ninja", [".ninja"]),
  ("Nit", [".nit"]),
  ("Nix", [".nix"]),
  ("NumPy", [".numpy .numpyw .numsc"]),
  ("Nunjucks", [".njk"]),
  ("OCaml", [".eliom .eliomi .ml4 .mli .mll .mly"]),
  ("Oberon", [".ob2"]),
  ("ObjDump", [".objdump"]),
  ("Objective-J", [".sj"]),
  ("Omgrofl", [".omgrofl"]),
  ("Opa", [".opa"]),
  ("Opal", [".opal"]),
  ("Open Policy Agent", [".rego"]),
  ("OpenCL", [".opencl"]),
  ("OpenQASM", [".qasm"]),
  ("OpenSCAD", [".scad"]),
  ("OpenStep Property List", [".glyphs"]),
  ("OpenType Feature File", [".fea"]),
  ("Org", [".org"]),
  ("Ox", [".ox .oxh .oxo"]),
  ("Oxygene", [".oxygene"]),
  ("Oz", [".oz"]),
  ("P4", [".p4"]),
  ("PDDL", [".pddl"]),
  ("PEG.js", [".pegjs"]),
  ("PHP", [".aw .ctp .php3 .php4 .php5 .phps .phpt"]),
  ("PLSQL", [".bdy .fnc .pck .pkb .pks .plb .pls .plsql .spc .tpb .tps .trg .vw"]),
  ("PLpgSQL", [".pgsql"]),
  ("POV-Ray SDL", [".pov"]),
  ("Pact", [".pact"]),
  ("Pan", [".pan"]),
  ("Papyrus", [".psc"]),
  ("Parrot", [".parrot"]),
  ("Parrot Assembly", [".pasm"]),
  ("Parrot Internal Representation", [".pir"]),
  ("Pascal", [".dfm .dpr .lpr .pas .pascal"]),
  ("Pawn", [".pwn .sma"]),
  ("Pep8", [".pep"]),
  ("Perl", [".perl .ph .plx .psgi"]),
  ("Pic", [".chem .pic"]),
  ("PigLatin", [".pig"]),
  ("Pike", [".pike .pmod"]),
  ("PlantUML", [".iuml .plantuml .puml"]),
  ("Pod 6", [".pod6"]),
  ("PogoScript", [".pogo"]),
  ("Polar", [".polar"]),
  ("Pony", [".pony"]),
  ("Portugol", [".por"]),
  ("PostCSS", [".pcss .postcss"]),
  ("PostScript", [".eps .epsi .pfa .ps"]),
  ("PowerBuilder", [".sra .sru .srw"]),
  ("PowerShell", [".ps1 .psd1 .psm1"]),
  ("Praat", [".praat"]),
  ("Prisma", [".prisma"]),
  ("Processing", [".pde"]),
  ("Prolog", [".prolog .yap"]),
  ("Promela", [".pml"]),
  ("Propeller Spin", [".spin"]),
  ("Protocol Buffer", [".proto"]),
  ("Protocol Buffer Text Format", [".pbtxt .textproto"]),
  ("Public Key", [".pub"]),
  ("Pug", [".jade .pug"]),
  ("Pure Data", [".pd"]),
  ("PureBasic", [".pb .pbi"]),
  ("PureScript", [".purs"]),
  ("Pyret", [".arr"]),
  ("Python", [".gyp .gypi .lmi .py .py3 .pyde .pyi .pyp .pyt .pyw .tac .wsgi .xpy"]),
  ("Python traceback", [".pytb"]),
  ("QML", [".qbs .qml"]),
  ("QMake", [".pri"]),
  ("R", [".rd .rsx"]),
  ("RAML", [".raml"]),
  ("RBS", [".rbs"]),
  ("RDoc", [".rdoc"]),
  ("REALbasic", [".rbbas .rbfrm .rbmnu .rbres .rbtbar .rbuistate"]),
  ("REXX", [".pprx .rex .rexx"]),
  ("RMarkdown", [".qmd .rmd"]),
  ("RON", [".ron"]),
  ("RPGLE", [".rpgle .sqlrpgle"]),
  ("RUNOFF", [".rnh"]),
  ("Racket", [".rkt .rktd .rktl .scrbl"]),
  ("Ragel", [".rl"]),
  ("Raku", [".6pl .6pm .nqp .p6 .p6l .p6m .pl6 .pm6 .raku .rakumod"]),
  ("Raw token data", [".raw"]),
  ("Reason", [".rei"]),
  ("ReasonLIGO", [".religo"]),
  ("Rebol", [".r2 .r3 .reb .rebol"]),
  ("Red", [".red .reds"]),
  ("Redcode", [".cw"]),
  ("Regular Expression", [".regex .regexp"]),
  ("RenderScript", [".rsh"]),
  ("Rich Text Format", [".rtf"]),
  ("Ring", [".ring"]),
  ("Riot", [".riot"]),
  ("RobotFramework", [".robot"]),
  ("Roc", [".roc"]),
  ("Roff", [".me .nr .roff .tmac"]),
  ("Rouge", [".rg"]),
  ("Ruby", [
    ".builder .eye .gemspec .god .jbuilder .mspec .podspec .prawn .rabl .rake .rb",
    ".rbi .rbuild .rbw .rbx .ru .ruby .thor .watchr"]),
  ("Rust", [".rs.in"]),
  ("SAS", [".sas"]),
  ("SCSS", [".scss"]),
  ("SELinux Policy", [".te"]),
  ("SMT", [".smt .smt2"]),
  ("SPARQL", [".rq .sparql"]),
  ("SQF", [".hqf .sqf"]),
  ("SQL", [".cql .mysql .tab .udf .viw"]),
  ("SQLPL", [".db2"]),
  ("STL", [".stl"]),
  ("STON", [".ston"]),
  ("SVG", [".svg"]),
  ("Sage", [".sage .sagews"]),
  ("Sass", [".sass"]),
  ("Scala", [".kojo .sbt .scala"]),
  ("Scaml", [".scaml"]),
  ("Scenic", [".scenic"]),
  ("Scheme", [".scm .sld .sps .ss"]),
  ("Scilab", [".sce .sci"]),
  ("Self", [".self"]),
  ("Shell", [".bash .bats .command .ksh .sh .sh.in .tmux .tool .zsh .zsh-theme"]),
  ("ShellSession", [".sh-session"]),
  ("Shen", [".shen"]),
  ("Sieve", [".sieve"]),
  ("Simple File Verification", [".sfv"]),
  ("Slash", [".sl"]),
  ("Slim", [".slim"]),
  ("Slint", [".slint"]),
  ("SmPL", [".cocci"]),
  ("Smali", [".smali"]),
  ("Smarty", [".tpl"]),
  ("Smithy", [".smithy"]),
  ("Snakemake", [".smk .snakefile"]),
  ("SourcePawn", [".sp"]),
  ("Spline Font Database", [".sfd"]),
  ("Squirrel", [".nut"]),
  ("Stan", [".stan"]),
  ("Standard ML", [".fun .sig .sml"]),
  ("Starlark", [".bzl"]),
  ("Stata", [".ado .do .doh .ihlp .mata .matah .sthlp"]),
  ("Stylus", [".styl"]),
  ("SugarSS", [".sss"]),
  ("Svelte", [".svelte"]),
  ("Sweave", [".rnw"]),
  ("Swift", [".swift"]),
  ("SystemVerilog", [".sv .svh .vh"]),
  ("TI Program", [".8xp .8xp.txt"]),
  ("TL-Verilog", [".tlv"]),
  ("TLA", [".tla"]),
  ("TOML", [".toml"]),
  ("TSV", [".tsv"]),
  ("TXL", [".txl"]),
  ("Talon", [".talon"]),
  ("Tcl", [".adp .sdc .tcl .tcl.in .tm .xdc"]),
  ("Tcsh", [".csh .tcsh"]),
  ("TeX", [".aux .bbx .cbx .dtx .ins .lbx .ltx .mkii .mkiv .mkvi .sty .tex"]),
  ("Tea", [".tea"]),
  ("Terraform Template", [".tftpl"]),
  ("Texinfo", [".texi .texinfo .txi"]),
  ("Text", [".no"]),
  ("TextGrid", [".textgrid"]),
  ("Textile", [".textile"]),
  ("Thrift", [".thrift"]),
  ("Toit", [".toit"]),
  ("Turing", [".tu"]),
  ("Turtle", [".ttl"]),
  ("Twig", [".twig"]),
  ("Type Language", [".tl"]),
  ("TypeScript", [".cts .mts"]),
  ("Unified Parallel C", [".upc"]),
  ("Unity3D Asset", [".anim .asset .mat .meta .prefab .unity"]),
  ("Uno", [".uno"]),
  ("UnrealScript", [".uc"]),
  ("UrWeb", [".ur .urs"]),
  ("VBScript", [".vbs"]),
  ("VCL", [".vcl"]),
  ("VHDL", [".vhd .vhdl .vhf .vhi .vho .vhs .vht .vhw"]),
  ("Vala", [".vala .vapi"]),
  ("Valve Data Format", [".vdf"]),
  ("Velocity Template Language", [".vtl"]),
  ("Verilog", [".veo"]),
  ("Vim Script", [".vim .vimrc .vmb"]),
  ("Vim Snippet", [".snip .snippet .snippets"]),
  ("Visual Basic .NET", [".vb .vbhtml"]),
  ("Visual Basic 6.0", [".ctl .dsr"]),
  ("Volt", [".volt"]),
  ("Vue", [".vue"]),
  ("Vyper", [".vy"]),
  ("WDL", [".wdl"]),
  ("WGSL", [".wgsl"]),
  ("Wavefront Material", [".mtl"]),
  ("Wavefront Object", [".obj"]),
  ("Web Ontology Language", [".owl"]),
  ("WebAssembly", [".wast .wat"]),
  ("WebAssembly Interface Type", [".wit"]),
  ("WebIDL", [".webidl"]),
  ("WebVTT", [".vtt"]),
  ("Whiley", [".whiley"]),
  ("Wikitext", [".mediawiki .wiki .wikitext"]),
  ("Windows Registry Entries", [".reg"]),
  ("Witcher Script", [".ws"]),
  ("Wollok", [".wlk"]),
  ("Wren", [".wren"]),
  ("X BitMap", [".xbm"]),
  ("X PixMap", [".xpm"]),
  ("X10", [".x10"]),
  ("XC", [".xc"]),
  ("XML", [
    ".adml .admx .ant .axaml .axml .builds .ccproj .ccxml .clixml .cproject .cscfg",
    ".csdef .csproj .ct .depproj .dita .ditamap .ditaval .dll.config .dotsettings",
    ".filters .fsproj .fxml .glade .gmx .grxml .hzp .iml .ivy .jelly .jsproj .kml",
    ".launch .mdpolicy .mjml .mxml .natvis .ndproj .nproj .nuspec .odd .osm .pkgproj",
    ".proj .props .ps1xml .psc1 .pt .qhelp .rdf .resx .rss .scxml .sfproj .shproj",
    ".srdf .storyboard .sublime-snippet .targets .tml .ui .urdf .ux .vbproj .vcxproj",
    ".vsixmanifest .vssettings .vstemplate .vxml .wixproj .wsdl .wsf .wxi .wxl .wxs",
    ".x3d .xacro .xaml .xib .xlf .xliff .xmi .xml .xml.dist .xmp .xproj .xsd .xspec",
    ".xul .zcml"]),
  ("XML Property List", [".sttheme .tmcommand .tmlanguage .tmpreferences .tmsnippet .tmtheme"]),
  ("XPages", [".xsp-config .xsp.metadata"]),
  ("XProc", [".xpl .xproc"]),
  ("XQuery", [".xq .xql .xqm .xquery .xqy"]),
  ("XS", [".xs"]),
  ("XSLT", [".xsl .xslt"]),
  ("Xojo", [".xojo_code .xojo_menu .xojo_report .xojo_script .xojo_toolbar .xojo_window"]),
  ("Xonsh", [".xsh"]),
  ("Xtend", [".xtend"]),
  ("YAML", [".mir .reek .rviz .sublime-syntax .syntax .yaml-tmlanguage .yaml.sed .yml.mysql"]),
  ("YANG", [".yang"]),
  ("YARA", [".yar .yara"]),
  ("YASnippet", [".yasnippet"]),
  ("Yacc", [".y .yacc"]),
  ("Yul", [".yul"]),
  ("ZAP", [".xzap .zap"]),
  ("ZIL", [".mud .zil"]),
  ("Zeek", [".bro .zeek"]),
  ("ZenScript", [".zs"]),
  ("Zephir", [".zep"]),
  ("Zig", [".zig .zig.zon"]),
  ("Zimpl", [".zimpl .zmpl .zpl"]),
  ("desktop", [".desktop .desktop.in .service"]),
  ("dircolors", [".dircolors"]),
  ("eC", [".ec .eh"]),
  ("edn", [".edn"]),
  ("fish", [".fish"]),
  ("hoon", [".hoon"]),
  ("kvlang", [".kv"]),
  ("mIRC Script", [".mrc"]),
  ("mcfunction", [".mcfunction"]),
  ("mupad", [".mu"]),
  ("nanorc", [".nanorc"]),
  ("nesC", [".nc"]),
  ("ooc", [".ooc"]),
  ("reStructuredText", [".rest .rest.txt .rst .rst.txt"]),
  ("sed", [".sed"]),
  ("templ", [".templ"]),
  ("wisp", [".wisp"]),
  ("xBase", [".prg .prw"])]

/-- Extensions that several languages share. -/
def sharedExtensionRows : List String := [
  ".1 .1in .1m .1x .2 .3 .3in .3m .3p .3pm .3qt .3x .4 .5 .6 .7 .8 .9 .al .as .asc .asm",
  ".asy .b .bas .bb .bf .brd .bs .cake .cfg .cgi .ch .cl .cls .cp .cs .csl .cue .d .ddl",
  ".dsc .dsp .e .ecl .es .ex .f .fcgi .for .fr .frag .frm .fs .ftl .fx .g .gd .gml .gs .gst",
  ".gts .h .hh .html .i .ice .inc .j .jq .json .ks .l .lean .lisp .ls .lsp .m .m4 .man",
  ".mask .mc .md .mdoc .ml .mm .mo .mod .mojo .moo .mqh .ms .n .nas .nb .ncl .nl .nu .odin",
  ".p .pbt .php .pkl .pl .plist .plt .pluginspec .pm .pod .pp .prc .pro .properties .q .qs",
  ".r .re .res .rno .rpy .rs .rsc .s .sc .scd .sch .shader .sls .sol .spec .sql .srt .st",
  ".star .sw .t .toc .trigger .ts .tst .tsx .txt .typ .v .vba .vhost .w .workflow .x .yaml",
  ".yml .yy"]

/-- File names that belong to one language, blank-separated. -/
def fileNameRows : List (String × List String) := [
  ("Alpine Abuild", ["APKBUILD"]),
  ("Ant Build System", ["ant.xml build.xml"]),
  ("ApacheConf", [".htaccess apache2.conf httpd.conf"]),
  ("Browserslist", [".browserslistrc browserslist"]),
  ("CMake", ["CMakeLists.txt"]),
  ("CODEOWNERS", ["CODEOWNERS"]),
  ("Cabal Config", ["cabal.config cabal.project"]),
  ("Caddyfile", ["Caddyfile"]),
  ("Checksums", [
    "MD5SUMS SHA1SUMS SHA256SUMS SHA256SUMS.txt SHA512SUMS checksums.txt cksums",
    "md5sum.txt"]),
  ("Clojure", ["riemann.config"]),
  ("Cloud Firestore Security Rules", ["firestore.rules"]),
  ("CoffeeScript", ["Cakefile"]),
  ("Dockerfile", ["Containerfile Dockerfile"]),
  ("Dotenv", [
    ".env .env.ci .env.dev .env.development .env.development.local .env.example",
    ".env.local .env.prod .env.production .env.sample .env.staging .env.test",
    ".env.testing"]),
  ("Earthly", ["Earthfile"]),
  ("EditorConfig", [".editorconfig"]),
  ("Elixir", ["mix.lock"]),
  ("Emacs Lisp", [
    ".abbrev_defs .emacs .emacs.desktop .gnus .spacemacs .viper Cask Project.ede",
    "_emacs abbrev_defs"]),
  ("Erlang", ["Emakefile rebar.config rebar.config.lock rebar.lock"]),
  ("Factor", [".factor-boot-rc .factor-rc"]),
  ("Fancy", ["Fakefile"]),
  ("GN", [".gn"]),
  ("Gemfile.lock", ["Gemfile.lock"]),
  ("Git Attributes", [".gitattributes"]),
  ("Git Config", [".gitconfig .gitmodules"]),
  ("Git Revision List", [".git-blame-ignore-revs"]),
  ("Go Checksums", ["go.sum go.work.sum"]),
  ("Go Module", ["go.mod"]),
  ("Go Workspace", ["go.work"]),
  ("Godot Resource", ["project.godot"]),
  ("Groovy", ["Jenkinsfile"]),
  ("HAProxy", ["haproxy.cfg"]),
  ("HOCON", [".scalafix.conf .scalafmt.conf"]),
  ("INI", [".coveragerc .flake8 .pylintrc buildozer.spec pylintrc vlcrc"]),
  ("Ignore List", [
    ".atomignore .babelignore .bzrignore .coffeelintignore .cvsignore .dockerignore",
    ".eleventyignore .eslintignore .gitignore .markdownlintignore .nodemonignore",
    ".npmignore .prettierignore .stylelintignore .vercelignore .vscodeignore",
    "gitignore-global gitignore_global"]),
  ("Isabelle ROOT", ["ROOT"]),
  ("JAR Manifest", ["MANIFEST.MF"]),
  ("JSON", [
    ".all-contributorsrc .arcconfig .auto-changelog .c8rc .htmlhintrc .imgbotconfig",
    ".nycrc .tern-config .tern-project .watchmanconfig MODULE.bazel.lock Pipfile.lock",
    "composer.lock deno.lock flake.lock mcmod.info"]),
  ("JSON with Comments", [
    ".babelrc .devcontainer.json .eslintrc.json .jscsrc .jshintrc .jslintrc .swcrc",
    "api-extractor.json devcontainer.json jsconfig.json language-configuration.json",
    "tsconfig.json tslint.json"]),
  ("JavaScript", ["Jakefile"]),
  ("Jupyter Notebook", ["Notebook"]),
  ("Just", [".JUSTFILE .Justfile .justfile JUSTFILE Justfile justfile"]),
  ("KakouneScript", ["kakrc"]),
  ("KiCad Layout", ["fp-lib-table"]),
  ("Lex", ["Lexer.x lexer.x"]),
  ("Linker Script", ["ld.script"]),
  ("LiveScript", ["Slakefile"]),
  ("Lua", [".luacheckrc"]),
  ("M4Sugar", ["configure.ac"]),
  ("Makefile", [
    "BSDmakefile GNUmakefile Kbuild Makefile Makefile.am Makefile.boot Makefile.frag",
    "Makefile.in Makefile.inc Makefile.wat makefile makefile.sco mkfile"]),
  ("Markdown", ["contents.lr"]),
  ("Maven POM", ["pom.xml"]),
  ("Meson", ["meson.build meson_options.txt"]),
  ("Module Management System", ["descrip.mmk descrip.mms"]),
  ("NPM Config", [".npmrc"]),
  ("Nextflow", ["nextflow.config"]),
  ("Nginx", ["nginx.conf"]),
  ("Nim", ["nim.cfg"]),
  ("Nu", ["Nukefile"]),
  ("Option List", [".ackrc .rspec .yardopts ackrc mocha.opts"]),
  ("PHP", [".php .php_cs .php_cs.dist Phakefile"]),
  ("Perl", [".latexmkrc Makefile.PL Rexfile ack cpanfile latexmkrc"]),
  ("Pip Requirements", ["requirements-dev.txt requirements.txt"]),
  ("Procfile", ["Procfile"]),
  ("Puppet", ["Modulefile"]),
  ("Python", [".gclient DEPS SConscript SConstruct wscript"]),
  ("Qt Script", ["installscript.qs toolchain_installscript.qs"]),
  ("Quake", ["m3makefile m3overrides"]),
  ("R", [".Rprofile expr-dist"]),
  ("Readline Config", [".inputrc inputrc"]),
  ("Record Jar", ["language-subtag-registry.txt"]),
  ("Redirect Rules", ["_redirects"]),
  ("Roff", ["eqnrc mmn mmt troffrc troffrc-end"]),
  ("Ruby", [
    ".irbrc .pryrc .simplecov Appraisals Berksfile Brewfile Buildfile Capfile",
    "Dangerfile Deliverfile Fastfile Gemfile Guardfile Jarfile Mavenfile Podfile",
    "Puppetfile Rakefile Snapfile Steepfile Thorfile Vagrantfile buildfile"]),
  ("SELinux Policy", [
    "file_contexts genfs_contexts initial_sids port_contexts security_classes"]),
  ("SSH Config", ["ssh-config ssh_config sshconfig sshconfig.snip sshd-config sshd_config"]),
  ("Shell", [
    ".bash_aliases .bash_functions .bash_history .bash_logout .bash_profile .bashrc",
    ".cshrc .envrc .flaskenv .kshrc .login .profile .tmux.conf .zlogin .zlogout",
    ".zprofile .zshenv .zshrc 9fs PKGBUILD bash_aliases bash_logout bash_profile",
    "bashrc cshrc gradlew kshrc login man profile tmux.conf zlogin zlogout zprofile",
    "zshenv zshrc"]),
  ("ShellCheck Config", [".shellcheckrc"]),
  ("Singularity", ["Singularity"]),
  ("Snakemake", ["Snakefile"]),
  ("Soong", ["Android.bp"]),
  ("Starlark", ["BUCK BUILD BUILD.bazel MODULE.bazel Tiltfile WORKSPACE WORKSPACE.bazel"]),
  ("TOML", ["Cargo.lock Cargo.toml.orig Gopkg.lock Pipfile pdm.lock poetry.lock"]),
  ("Tcl", ["owh starfield"]),
  ("Text", [
    "CITATION CITATIONS COPYING COPYING.regex COPYRIGHT.regex FONTLOG INSTALL",
    "INSTALL.mysql LICENSE LICENSE.mysql NEWS README.me README.mysql README.nss",
    "click.me delete.me keep.me package.mask package.use.mask package.use.stable.mask",
    "read.me readme.1st test.me use.mask use.stable.mask"]),
  ("TextMate Properties", [".tm_properties"]),
  ("Vim Script", [".exrc .gvimrc .nvimrc .vimrc _vimrc gvimrc nvimrc vimrc"]),
  ("Wget Config", [".wgetrc"]),
  ("X Font Directory Index", ["encodings.dir fonts.alias fonts.dir fonts.scale"]),
  ("XCompose", [".XCompose XCompose xcompose"]),
  ("XML", [
    ".classpath .cproject .project App.config NuGet.config Settings.StyleCop",
    "Web.Debug.config Web.Release.config Web.config packages.config"]),
  ("YAML", [".clang-format .clang-tidy .gemrc CITATION.cff glide.lock yarn.lock"]),
  ("cURL Config", [".curlrc _curlrc"]),
  ("crontab", ["crontab"]),
  ("dircolors", [".dir_colors .dircolors DIR_COLORS _dir_colors _dircolors dir_colors"]),
  ("nanorc", [".nanorc nanorc"]),
  ("robots.txt", ["robots.txt"])]

/-- The words of a row. -/
def rowWords (lines : List String) : List String :=
  lines.flatMap fun line => line.splitOn " "

/-- Each extension with its language, or with none if several share it. -/
def extensionEntries : List (String × Option String) :=
  (rowWords sharedExtensionRows).map (·, none) ++
    extensionRows.flatMap fun row => (rowWords row.2).map (·, some row.1)

/-- Each file name with its language. -/
def fileNameEntries : List (String × String) :=
  fileNameRows.flatMap fun row => (rowWords row.2).map (·, row.1)

end Sift.Language
